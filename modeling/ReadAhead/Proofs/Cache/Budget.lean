import ReadAhead.Proofs.Cache.Arithmetic

/-!
  Budget — how far the cache can exceed it

  An entry that exceeds the budget is kept, so the size of the cache can exceed the
  budget as well. But then it is the size of that one entry: whatever else is in the
  cache takes up nothing.

  What is proved:
    1. `extract_bounded` — taking out an entry leaves this so. Evicting is taking
       out, and nothing but putting adds anything.
    2. `put_bounded`, `put_size_le` — an entry that was put is alone with entries of
       no size, or within the budget with all others.
    3. `perform_bounded` — every use of the cache leaves it so.
    4. `budget_kept` — so in every session the budget is kept or exceeded by one
       entry alone; and an entry that fits, like a change of the budget, brings the
       size down to the budget.
    5. `budget_kept_alone` (anti-vacuity) — an entry of twice the budget, and what a change
       of the budget does about it.
-/

namespace ReadAhead

open Std

namespace Store

section
variable {K V : Type} [BEq K] [Hashable K]

/-- An entry exceeds the budget, and the cache is no larger than it. -/
structure Exceeded (s : Store K V) (key : K) (entry : Resident V) : Prop where
  resident : s.entries[key]? = some entry
  large : s.budget < entry.size
  whole : s.size = entry.size

/-- The budget is kept, or one entry alone exceeds it. -/
def Bounded (s : Store K V) : Prop := s.size ≤ s.budget ∨ ∃ key entry, s.Exceeded key entry

theorem Bounded.congr {s t : Store K V} (hs : s.Bounded) (entries : t.entries = s.entries)
    (budget : t.budget = s.budget) (size : t.size = s.size) : t.Bounded := by
  rcases hs with kept | ⟨key, entry, hs⟩
  · left
    rwa [size, budget]
  · refine .inr ⟨key, entry, ?_, ?_, size.trans hs.whole⟩
    · rw [entries, hs.resident]
    · rw [budget]
      exact hs.large

end

variable {K V : Type} [BEq K] [Hashable K] [EquivBEq K] [LawfulHashable K]
variable {measure : K → V → Count} {s : Store K V} {key : K} {entry : Resident V}

theorem Consistent.size_add_le (h : s.Consistent measure) (he : s.entries[key]? = some entry)
    {other : K} {entry' : Resident V} (apart : ¬ (key == other) = true)
    (he' : s.entries[other]? = some entry') :
    entry.size.toNat + entry'.size.toNat ≤ s.size.toNat := by
  have remains : (s.extract key).2.entries[other]? = some entry' := by
    simp only [extract, he]
    rw [HashMap.getElem?_erase, if_neg apart, he']
  have rest := (extract_consistent h key).size_le remains
  have hle := h.size_le he
  simp only [extract, he, UInt64.le_iff_toNat_le, UInt64.toNat_sub_of_le _ _ hle] at rest
  rw [UInt64.le_iff_toNat_le] at hle
  omega

theorem Exceeded.others (h : s.Consistent measure) (hs : s.Exceeded key entry) {other : K}
    {entry' : Resident V} (apart : ¬ (key == other) = true)
    (he' : s.entries[other]? = some entry') : entry'.size = 0 := by
  have both := h.size_add_le hs.resident apart he'
  rw [hs.whole] at both
  exact UInt64.toNat_inj.mp (by rw [UInt64.toNat_zero]; omega)

/-! ## Taking out -/

theorem extract_size_le (h : s.Consistent measure) (key : K) : (s.extract key).2.size ≤ s.size := by
  unfold extract
  split
  · exact UInt64.le_refl _
  · next entry he =>
    have hle := h.size_le he
    rw [UInt64.le_iff_toNat_le]
    simp only [UInt64.toNat_sub_of_le _ _ hle]
    omega

theorem Exceeded.extract (h : s.Consistent measure) (hs : s.Exceeded key entry) {other : K}
    (apart : ¬ (key == other) = true) : (s.extract other).2.Exceeded key entry := by
  unfold Store.extract
  split
  · exact hs
  · next taken he =>
    -- beside the large entry, only entries of no size can be taken out
    have nothing := hs.others h apart he
    refine ⟨?_, hs.large, ?_⟩
    · show (s.entries.erase other)[key]? = some entry
      rw [HashMap.getElem?_erase, if_neg fun same => apart (BEq.symm same), hs.resident]
    · show s.size - taken.size = entry.size
      rw [nothing, UInt64.sub_zero, hs.whole]

theorem extract_bounded (h : s.Consistent measure) (hs : s.Bounded) (key : K) :
    (s.extract key).2.Bounded := by
  have budget := (extract_frame s key).1
  rcases hs with kept | ⟨largest, entry, hs⟩
  · left
    rw [budget]
    exact UInt64.le_trans (extract_size_le h key) kept
  · by_cases same : (largest == key) = true
    · left
      have found : s.entries[key]? = some entry := by
        rw [← HashMap.getElem?_congr same, hs.resident]
      simp only [Store.extract, found, hs.whole, UInt64.sub_self]
      exact UInt64.zero_le
    · exact .inr ⟨largest, entry, hs.extract h same⟩

theorem dropOldest_bounded (h : s.Consistent measure) (hs : s.Bounded) :
    s.dropOldest.2.Bounded := by
  rcases h.dropOldest_cases with ⟨_, hd, _⟩ | ⟨k, entry, _, _, hd⟩
  · rw [hd]
    exact hs
  · rw [hd]
    exact (extract_bounded h hs k).congr rfl rfl rfl

theorem shrink_bounded (h : s.Consistent measure) (hs : s.Bounded) (target : Count)
    (reason : Reason) : (s.shrink target reason).2.Bounded :=
  (shrink_induction (P := fun t => t.Consistent measure ∧ t.Bounded)
    (fun _ ht => ⟨dropOldest_consistent ht.1, dropOldest_bounded ht.1 ht.2⟩)
    target reason ⟨h, hs⟩).2

/-! ## Putting -/

theorem put_frame (measure : K → V → Count) (s : Store K V) (key : K) (value : V) :
    (∃ recency, (s.put measure key value).2.entries[key]?
      = some ⟨value, measure key value, recency⟩) ∧
    (s.put measure key value).2.budget = s.budget := by
  rw [put_store]
  exact ⟨⟨_, HashMap.getElem?_insert_self⟩,
    (shrink_budget _ _).trans (extract_frame { s with puts := s.puts + 1 } key).1⟩

theorem toNat_size_put (h : s.Consistent measure) (key : K) (value : V) :
    ∃ left, left ≤ (roomFor s.budget (measure key value)).toNat ∧
      (s.put measure key value).2.size.toNat = left + (measure key value).toNat := by
  have counted : ({ s with puts := s.puts + 1 } : Store K V).Consistent measure :=
    h.congr .rfl rfl rfl rfl
  have out := extract_consistent counted key
  have fits := room_fits out s.budget (measure key value) .capacity
  refine ⟨_, UInt64.le_iff_toNat_le.mp (shrink_size_le _ .capacity out), ?_⟩
  rw [put_store]
  simp only [insert, UInt64.toNat_add]
  exact Nat.mod_eq_of_lt fits

/-- **An entry that fits the budget brings the cache within it.** -/
theorem put_size_le (h : s.Consistent measure) (key : K) (value : V)
    (fits : measure key value ≤ s.budget) : (s.put measure key value).2.size ≤ s.budget := by
  obtain ⟨left, room, size⟩ := toNat_size_put h key value
  rw [roomFor, if_neg (UInt64.not_lt.mpr fits), UInt64.toNat_sub_of_le _ _ fits] at room
  rw [UInt64.le_iff_toNat_le] at fits ⊢
  omega

/-- **One that does not fit is alone.** -/
theorem put_exceeded (h : s.Consistent measure) (key : K) (value : V)
    (large : s.budget < measure key value) :
    ∃ entry, (s.put measure key value).2.Exceeded key entry := by
  obtain ⟨⟨recency, resident⟩, budget⟩ := put_frame measure s key value
  obtain ⟨left, room, size⟩ := toNat_size_put h key value
  -- no room is left beside an entry that does not fit
  rw [roomFor, if_pos large, UInt64.toNat_zero] at room
  refine ⟨_, resident, ?_, UInt64.toNat_inj.mp ?_⟩
  · rw [budget]
    exact large
  · dsimp only
    omega

theorem put_bounded (h : s.Consistent measure) (key : K) (value : V) :
    (s.put measure key value).2.Bounded := by
  by_cases fits : measure key value ≤ s.budget
  · left
    rw [(put_frame measure s key value).2]
    exact put_size_le h key value fits
  · exact .inr ⟨key, put_exceeded h key value (UInt64.not_le.mp fits)⟩

/-! ## Uses of the cache -/

theorem markUsed_bounded (hs : s.Bounded) (key : K) : (s.markUsed key).Bounded := by
  unfold markUsed
  split
  · exact hs.congr rfl rfl rfl
  · next used he =>
    rcases hs with kept | ⟨largest, entry, hs⟩
    · exact .inl kept
    · by_cases same : (key == largest) = true
      · have this : used = entry := by
          rw [HashMap.getElem?_congr same, hs.resident] at he
          exact (Option.some.inj he).symm
        refine .inr ⟨largest, { used with recency := s.nextRecency }, ?_, ?_, ?_⟩
        · show (s.entries.insert key _)[largest]? = _
          rw [HashMap.getElem?_insert, if_pos same]
        · rw [this]
          exact hs.large
        · rw [this]
          exact hs.whole
      · refine .inr ⟨largest, entry, ?_, hs.large, hs.whole⟩
        show (s.entries.insert key _)[largest]? = _
        rw [HashMap.getElem?_insert, if_neg same, hs.resident]

theorem setBudget_size_le (h : s.Consistent measure) (budget : Count) :
    (s.setBudget budget).2.budget = budget ∧ (s.setBudget budget).2.size ≤ budget := by
  have changed : ({ s with budget := budget } : Store K V).Consistent measure :=
    h.congr .rfl rfl rfl rfl
  exact ⟨shrink_budget _ _, shrink_size_le budget .trimmed changed⟩

/-- **Every use of the cache keeps the budget, or leaves one entry alone above it.** -/
theorem perform_bounded (h : s.Consistent measure) (hs : s.Bounded) (use : CacheCall K V) :
    (s.perform measure use).2.2.Bounded := by
  have share (x : Float) : (s.trimToShare x).2.Bounded := by
    unfold trimToShare
    split
    · exact shrink_bounded h hs _ _
    · exact hs
  cases use with
  | put key value => exact put_bounded h key value
  | get key =>
    simp only [perform, get]
    split
    · exact hs.congr rfl rfl rfl
    · exact (markUsed_bounded hs key).congr rfl rfl rfl
  | peek key => exact hs
  | contains key => exact hs
  | remove key => exact extract_bounded h hs key
  | trimToShare x => exact share x
  | trimTo target => exact shrink_bounded h hs target .trimmed
  | relieve pressure => exact share _
  | clear => exact .inl UInt64.zero_le
  | setBudget budget =>
    obtain ⟨same, within⟩ := setBudget_size_le h budget
    left
    show (s.setBudget budget).2.size ≤ (s.setBudget budget).2.budget
    rw [same]
    exact within

end Store

variable {K V : Type} [BEq K] [Hashable K] [EquivBEq K] [LawfulHashable K]

/-- **The budget is kept, or exceeded by one entry alone.** Whatever a program and the
hook do with a cache that starts empty, after any number of steps: the size is within
the budget, or it is the size of one entry that exceeds the budget, and all others
are of no size. A put from there leaves the budget as it is and its value in the
cache, whatever its size, and if it fits the budget, the size within it. Changing
the budget brings the size down to the new one. -/
theorem budget_kept (measure : K → V → Count) (hook : ReleaseHook K V) (budget : Count)
    (p : CacheProgram K V) (steps : Nat) :
    let s := ((Session.start (.empty budget) p).advance measure hook steps).store
    (s.size ≤ s.budget ∨ ∃ (key : K) (entry : Resident V), s.entries[key]? = some entry ∧
      s.budget < entry.size ∧ s.size = entry.size ∧
      ∀ (other : K) (entry' : Resident V), s.entries[other]? = some entry' →
        entry'.size ≠ 0 → (key == other) = true) ∧
    (∀ key value,
      let after := (s.perform measure (.put key value)).2.2
      after.find? key = some value ∧ after.budget = s.budget ∧
      (measure key value ≤ s.budget → after.size ≤ s.budget)) ∧
    (∀ b,
      let after := (s.perform measure (.setBudget b)).2.2
      after.budget = b ∧ after.size ≤ b) := by
  intro s
  have start : (Store.empty budget : Store K V).Bounded := .inl UInt64.zero_le
  obtain ⟨consistent, bounded⟩ : s.Consistent measure ∧ s.Bounded :=
    Session.advance_induction (P := fun _ t => t.Consistent measure ∧ t.Bounded)
      (fun _ _ ht => ht)
      (fun _ _ use ht =>
        ⟨Store.perform_consistent ht.1 use, Store.perform_bounded ht.1 ht.2 use⟩)
      steps (n := 0) ⟨Store.empty_consistent budget, start⟩
  refine ⟨?_, ?_, ?_⟩
  · rcases bounded with kept | ⟨key, entry, exceeded⟩
    · exact .inl kept
    · refine .inr ⟨key, entry, exceeded.resident, exceeded.large, exceeded.whole, ?_⟩
      intro other entry' found sized
      cases same : key == other with
      | true => rfl
      | false => exact absurd (exceeded.others consistent (by simp [same]) found) sized
  · intro key value
    obtain ⟨⟨_, resident⟩, same⟩ := Store.put_frame measure s key value
    refine ⟨?_, same, Store.put_size_le consistent key value⟩
    show (s.put measure key value).2.find? key = some value
    rw [Store.find?, resident]
    rfl
  · exact fun b => Store.setBudget_size_le consistent b

/-- **Not vacuous**: an entry of twenty exceeds a budget of ten, and is all there is.
A budget of five brings the size down to it, and in any budget what is put is
there. -/
theorem budget_kept_alone :
    let measure : Nat → Count → Count := fun _ v => v
    let s := ((Session.start (.empty 10) (.ofCalls [.put 2 20])).advance measure .quiet 1).store
    (∃ (key : Nat) (entry : Resident Count), s.entries[key]? = some entry ∧ 10 < entry.size ∧
      s.size = entry.size ∧ ∀ (other : Nat) (entry' : Resident Count),
        s.entries[other]? = some entry' → entry'.size ≠ 0 → (key == other) = true) ∧
    (s.perform measure (.setBudget 5)).2.2.size ≤ 5 ∧
    (s.perform measure (.put 3 30)).2.2.find? 3 = some 30 := by
  intro measure s
  obtain ⟨alone, puts, budgets⟩ := budget_kept measure .quiet 10 (.ofCalls [.put 2 20]) 1
  have budget : s.budget = 10 := (Store.put_frame measure (.empty 10) 2 20).2
  obtain ⟨_, exceeded⟩ : ∃ entry, s.Exceeded 2 entry :=
    Store.put_exceeded (Store.empty_consistent 10) 2 20 (by decide)
  have above : ¬ s.size ≤ s.budget := by
    rw [exceeded.whole, UInt64.not_le]
    exact exceeded.large
  rw [← budget]
  exact ⟨alone.resolve_left above, (budgets 5).2, (puts 3 30).1⟩

end ReadAhead
