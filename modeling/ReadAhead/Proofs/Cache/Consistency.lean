import Mathlib.Algebra.GroupWithZero.Nat
import ReadAhead.Cache.Session

/-!
  Consistency of the store — two maps and a sum that belong together

  `Store.Consistent` is what every store has that a cache comes to: the map of
  entries and the map of last uses are inverse to each other, numbers in use are
  below the next one, every entry has the size that was measured for it, and
  `size` is the sum of the sizes as natural numbers.

  What is proved:
    1. Each of the primitives of the store keeps it (`insert_consistent`,
       `markUsed_consistent`, `extract_consistent`, `clear_consistent`). Adding
       an entry needs that the sum fits a word; nothing else is needed.
    2. `dropOldest_eq` — a consistent store that has a number has an entry behind
       the smallest one, so evicting is taking that entry out.
    3. `shrink_consistent`, `shrink_size_le` — evicting keeps consistency and
       reaches its target, so that an entry put in next fits.
    4. `perform_consistent` — every use of the cache keeps it.

  Keys are compared by `==`, which need not be equality: a map may hold another
  key than the one asked for, as long as the two compare equal.
-/

namespace ReadAhead

open Std

/-! ## Lists of a map's entries -/

section Entries
variable {K W : Type} [BEq K] [Hashable K] [EquivBEq K] [LawfulHashable K]

theorem toList_insert_of_none {m : HashMap K W} {key : K} {w : W} (h : m[key]? = none) :
    (m.insert key w).toList.Perm ((key, w) :: m.toList) := by
  have others : m.toList.filter (fun p => ¬(key == p.1) = true) = m.toList := by
    rw [List.filter_eq_self]
    intro p hp
    have found := HashMap.getElem?_eq_some_iff_exists_beq_and_mem_toList
      (m := m) (k := key) (v := p.2)
    grind
  have split := HashMap.toList_insert_perm (m := m) (k := key) (v := w)
  rwa [others] at split

theorem toList_of_some {m : HashMap K W} {key : K} {w : W} (h : m[key]? = some w) :
    ∃ k, (k == key) = true ∧ m.toList.Perm ((k, w) :: (m.erase key).toList) := by
  have hm : key ∈ m := by grind
  have hb := HashMap.getKey_beq hm
  refine ⟨m.getKey key hm, hb, ?_⟩
  have hnone : (m.erase key)[m.getKey key hm]? = none := by
    rw [HashMap.getElem?_erase, if_pos (BEq.symm hb)]
  refine (HashMap.Equiv.toList_perm ?_).trans (toList_insert_of_none hnone)
  apply HashMap.Equiv.of_forall_getKey_eq_of_forall_getElem?_eq
  · intro a ha _
    rw [HashMap.getKey_insert]
    split
    · next hka => exact (HashMap.getKey_congr (BEq.trans (BEq.symm hb) hka) hm).symm
    · exact HashMap.getKey_erase.symm
  · intro a
    rw [HashMap.getElem?_insert, HashMap.getElem?_erase]
    split
    · next hka => rw [← HashMap.getElem?_congr (BEq.trans (BEq.symm hb) hka), h]
    · next hka => rw [if_neg fun h' => hka (BEq.trans hb h')]

theorem insert_equiv_erase_insert (m : HashMap K W) (key : K) (w : W) :
    (m.insert key w).Equiv ((m.erase key).insert key w) := by
  apply HashMap.Equiv.of_forall_getKey_eq_of_forall_getElem?_eq
  · intro a _ _
    rw [HashMap.getKey_insert, HashMap.getKey_insert]
    split
    · rfl
    · exact HashMap.getKey_erase.symm
  · intro a
    simp only [HashMap.getElem?_insert, HashMap.getElem?_erase]
    split <;> rfl

theorem toList_eq_nil {m : HashMap K W} (h : ∀ key : K, m[key]? = none) : m.toList = [] := by
  rw [List.eq_nil_iff_forall_not_mem]
  intro p hp
  have found := HashMap.getElem?_eq_some_iff_exists_beq_and_mem_toList
    (m := m) (k := p.1) (v := p.2)
  rw [h] at found
  exact absurd (found.mpr ⟨p.1, BEq.rfl, hp⟩) (by simp)

end Entries

namespace Store

set_option linter.unusedSectionVars false

/-! ## What holds of every store -/

section
variable {K V : Type} [BEq K] [Hashable K]

/-- The sum of the sizes of all entries. -/
def held (s : Store K V) : Nat := (s.entries.toList.map fun p => p.2.size.toNat).sum

/-- The two maps belong together, and the figures kept along are right. -/
structure Consistent (measure : K → V → Count) (s : Store K V) : Prop where
  /-- A number leads to a key exactly if the entry of that key has the number. -/
  inverse : ∀ (n : Nat) (key : K), (∃ k, s.recency[n]? = some k ∧ (k == key) = true) ↔
    ∃ entry : Resident V, s.entries[key]? = some entry ∧ entry.recency = n
  below : ∀ n ∈ s.recency, n < s.nextRecency
  /-- The size of an entry is that of its value, under the key it was put under. -/
  measured : ∀ (key : K) (entry : Resident V), s.entries[key]? = some entry →
    ∃ k, (k == key) = true ∧ entry.size = measure k entry.value
  total : s.size.toNat = s.held

end

variable {K V : Type} [BEq K] [Hashable K] [EquivBEq K] [LawfulHashable K]
variable {measure : K → V → Count} {s : Store K V} {key : K} {entry : Resident V}

theorem empty_consistent (budget : Count) : (empty budget : Store K V).Consistent measure where
  inverse n key := by simp [empty]
  below n hn := by simp [empty] at hn
  measured key entry h := by simp [empty] at h
  total := by simp [empty, held]

/-- Only the maps, the next number and the size matter, and of the entries only
what is under which key. -/
theorem Consistent.congr (h : s.Consistent measure) {t : Store K V}
    (entries : t.entries.Equiv s.entries) (recency : t.recency = s.recency)
    (next : t.nextRecency = s.nextRecency) (size : t.size = s.size) : t.Consistent measure := by
  have found (key : K) : t.entries[key]? = s.entries[key]? := entries.getElem?_eq
  refine ⟨?_, ?_, ?_, ?_⟩
  · simp only [found, recency]; exact h.inverse
  · rw [recency, next]; exact h.below
  · simp only [found]; exact h.measured
  · rw [size, h.total, held, held, (entries.toList_perm.map _).sum_nat]

theorem Consistent.recency_of_entry (h : s.Consistent measure)
    (he : s.entries[key]? = some entry) :
    ∃ k, s.recency[entry.recency]? = some k ∧ (k == key) = true :=
  (h.inverse entry.recency key).mpr ⟨entry, he, rfl⟩

theorem Consistent.entry_of_recency (h : s.Consistent measure) {n : Nat}
    (hn : s.recency[n]? = some key) : ∃ entry, s.entries[key]? = some entry ∧ entry.recency = n :=
  (h.inverse n key).mp ⟨key, hn, BEq.rfl⟩

theorem Consistent.recency_next (h : s.Consistent measure) : s.recency[s.nextRecency]? = none := by
  cases hn : s.recency[s.nextRecency]? with
  | none => rfl
  | some k =>
    have := h.below s.nextRecency (by rw [TreeMap.mem_iff_isSome_getElem?, hn]; rfl)
    omega

theorem Consistent.recency_ne_next (h : s.Consistent measure)
    (he : s.entries[key]? = some entry) : entry.recency ≠ s.nextRecency := by
  intro heq
  obtain ⟨k, hk, _⟩ := h.recency_of_entry he
  rw [heq, h.recency_next] at hk
  simp at hk

/-- Taking out an entry leaves the sum of the others. -/
theorem held_eq (he : s.entries[key]? = some entry) :
    s.held = entry.size.toNat +
      ((s.entries.erase key).toList.map fun p => p.2.size.toNat).sum := by
  obtain ⟨k, _, split⟩ := toList_of_some he
  rw [held, (split.map _).sum_nat]
  simp

theorem Consistent.size_le (h : s.Consistent measure) (he : s.entries[key]? = some entry) :
    entry.size ≤ s.size := by
  rw [UInt64.le_iff_toNat_le, h.total, held_eq he]
  omega

/-! ## The primitives -/

theorem insert_consistent (h : s.Consistent measure) (hnone : s.entries[key]? = none)
    {value : V} {size : Count} (hsize : ∃ k, (k == key) = true ∧ size = measure k value)
    (hfit : s.size.toNat + size.toNat < UInt64.size) :
    (s.insert key value size).Consistent measure := by
  refine ⟨?_, ?_, ?_, ?_⟩
  · intro n a
    simp only [insert, TreeMap.getElem?_insert, HashMap.getElem?_insert, Nat.compare_eq_eq]
    by_cases hn : s.nextRecency = n
    · subst hn
      by_cases hka : (key == a) = true
      · simp [hka]
      · simp only [if_true, hka, Option.some.injEq]
        constructor
        · rintro ⟨k, rfl, hk⟩; exact absurd hk hka
        · rintro ⟨e, he, hr⟩; exact absurd hr (h.recency_ne_next he)
    · by_cases hka : (key == a) = true
      · simp only [hn, if_false, hka, if_true, Option.some.injEq]
        constructor
        · intro hk
          obtain ⟨e, he, _⟩ := (h.inverse n a).mp hk
          rw [← HashMap.getElem?_congr hka, hnone] at he
          simp at he
        · rintro ⟨e, rfl, hr⟩; exact absurd hr hn
      · simpa [hn, hka] using h.inverse n a
  · intro n hn
    simp only [insert, TreeMap.mem_insert, Nat.compare_eq_eq] at hn ⊢
    rcases hn with rfl | hn
    · omega
    · exact Nat.lt_succ_of_lt (h.below n hn)
  · intro a e he
    simp only [insert, HashMap.getElem?_insert] at he
    split at he
    · next hka =>
      obtain rfl := Option.some.inj he
      obtain ⟨k, hk, hm⟩ := hsize
      exact ⟨k, BEq.trans hk hka, hm⟩
    · exact h.measured a e he
  · have split := ((toList_insert_of_none (w := ⟨value, size, s.nextRecency⟩) hnone).map
      fun p => p.2.size.toNat).sum_nat
    have total := h.total
    simp only [insert, held, UInt64.toNat_add, List.map_cons, List.sum_cons] at split total ⊢
    dsimp only [UInt64.size] at hfit
    omega

theorem extract_consistent (h : s.Consistent measure) (key : K) :
    (s.extract key).2.Consistent measure := by
  unfold extract
  split
  · exact h
  · next entry he =>
    refine ⟨?_, ?_, ?_, ?_⟩
    · intro n a
      simp only [TreeMap.getElem?_erase, HashMap.getElem?_erase, Nat.compare_eq_eq]
      -- the number and the key that are erased belong to each other
      have paired := h.inverse n a
      obtain ⟨k, hk, hkk⟩ := h.recency_of_entry he
      by_cases hn : entry.recency = n
      · subst hn
        by_cases hka : (key == a) = true
        · simp [hka]
        · simp only [if_true, hka]
          constructor
          · rintro ⟨_, hx, _⟩; simp at hx
          · intro hx
            obtain ⟨k', hk', hka'⟩ := paired.mpr hx
            rw [hk] at hk'
            obtain rfl := Option.some.inj hk'
            exact absurd (BEq.trans (BEq.symm hkk) hka') hka
      · by_cases hka : (key == a) = true
        · simp only [hn, if_false, hka, if_true]
          constructor
          · intro hx
            obtain ⟨e, hae, hr⟩ := paired.mp hx
            rw [← HashMap.getElem?_congr hka, he] at hae
            obtain rfl := Option.some.inj hae
            exact absurd hr hn
          · rintro ⟨_, hx, _⟩; simp at hx
        · simpa [hn, hka] using paired
    · intro n hn
      exact h.below n (TreeMap.mem_of_mem_erase hn)
    · intro a e hae
      simp only [HashMap.getElem?_erase] at hae
      split at hae
      · simp at hae
      · exact h.measured a e hae
    · have hle := h.size_le he
      simp only [UInt64.toNat_sub_of_le _ _ hle, h.total, held_eq he, Nat.add_sub_cancel_left]
      rfl

theorem extract_entries_self (s : Store K V) (key : K) : (s.extract key).2.entries[key]? = none := by
  unfold extract
  split
  · next hnone => exact hnone
  · exact HashMap.getElem?_erase_self

theorem markUsed_consistent (h : s.Consistent measure) (key : K) :
    (s.markUsed key).Consistent measure := by
  unfold markUsed
  split
  · exact ⟨h.inverse, fun n hn => Nat.lt_succ_of_lt (h.below n hn), h.measured, h.total⟩
  · next entry he =>
    -- the entry is taken out and put back under the next number
    have fits : (s.extract key).2.size.toNat + entry.size.toNat = s.size.toNat := by
      have hle := h.size_le he
      simp only [extract, he, UInt64.toNat_sub_of_le _ _ hle]
      exact Nat.sub_add_cancel (UInt64.le_iff_toNat_le.mp hle)
    have back : ((s.extract key).2.insert key entry.value entry.size).Consistent measure :=
      insert_consistent (extract_consistent h key) (extract_entries_self s key)
        (h.measured key entry he) (by rw [fits]; exact s.size.toNat_lt)
    refine back.congr ?_ ?_ ?_ ?_
    · simp only [insert, extract, he]
      exact insert_equiv_erase_insert _ _ _
    · simp only [insert, extract, he]
    · simp only [insert, extract, he]
    · simp only [insert, extract, he]
      exact (UInt64.sub_add_cancel _ _).symm

theorem clear_consistent (s : Store K V) : s.clear.2.Consistent measure where
  inverse n key := by simp [clear]
  below n hn := by simp [clear] at hn
  measured key entry he := by simp [clear] at he
  total := by simp [clear, held]

/-! ## Evicting -/

theorem Consistent.size_eq_zero (h : s.Consistent measure) (hempty : s.recency.isEmpty) :
    s.size.toNat = 0 := by
  have none (key : K) : s.entries[key]? = none := by
    cases he : s.entries[key]? with
    | none => rfl
    | some entry =>
      obtain ⟨k, hk, _⟩ := h.recency_of_entry he
      rw [TreeMap.getElem?_of_isEmpty hempty] at hk
      simp at hk
  rw [h.total, held, toList_eq_nil none]
  rfl

/-- **What evicting comes to.** Either there is nothing to evict, and the size is
zero; or behind the smallest number there is an entry which has that number, and
evicting it is taking it out and counting. -/
theorem Consistent.dropOldest_cases (h : s.Consistent measure) :
    (s.oldest? = none ∧ s.dropOldest = (none, s) ∧ s.size = 0) ∨
    ∃ k entry, s.oldest? = some (entry.recency, k) ∧ s.entries[k]? = some entry ∧
      s.dropOldest = (some (k, entry.value),
        { (s.extract k).2 with evictions := s.evictions + 1 }) := by
  cases hmin : s.recency.minKey? with
  | none =>
    have ho : s.oldest? = none := by simp [oldest?, hmin]
    have zero := h.size_eq_zero (TreeMap.minKey?_eq_none_iff.mp hmin)
    exact Or.inl ⟨ho, by simp only [dropOldest, ho], UInt64.toNat_inj.mp zero⟩
  | some n =>
    have hn : n ∈ s.recency := (TreeMap.minKey?_eq_some_iff_mem_and_forall.mp hmin).1
    obtain ⟨k, hk⟩ := Option.isSome_iff_exists.mp (TreeMap.mem_iff_isSome_getElem?.mp hn)
    obtain ⟨entry, he, rfl⟩ := h.entry_of_recency hk
    have ho : s.oldest? = some (entry.recency, k) := by simp [oldest?, hmin, hk]
    exact Or.inr ⟨k, entry, ho, he, by simp only [dropOldest, ho, he, extract]⟩

theorem Consistent.size_recency_extract (h : s.Consistent measure)
    (he : s.entries[key]? = some entry) :
    (s.extract key).2.recency.size + 1 = s.recency.size := by
  obtain ⟨k, hk, _⟩ := h.recency_of_entry he
  have hm : entry.recency ∈ s.recency := by
    rw [TreeMap.mem_iff_isSome_getElem?, hk]; rfl
  have pos : s.recency.size ≠ 0 := by
    intro hzero
    rw [TreeMap.getElem?_of_isEmpty (by rw [TreeMap.isEmpty_eq_size_eq_zero, hzero]; rfl)] at hk
    simp at hk
  simp only [extract, he, TreeMap.size_erase]
  rw [if_pos (TreeMap.mem_iff_contains.mp hm)]
  omega

theorem dropOldest_consistent (h : s.Consistent measure) : s.dropOldest.2.Consistent measure := by
  rcases h.dropOldest_cases with ⟨_, hd, _⟩ | ⟨k, entry, _, _, hd⟩
  · rw [hd]; exact h
  · rw [hd]; exact (extract_consistent h k).congr .rfl rfl rfl rfl

/-- Evicting in rounds keeps consistency; given as many rounds as there are
numbers it reaches the target. -/
theorem shrinkRounds_consistent (target : Count) (reason : Reason) (rounds : Nat)
    (h : s.Consistent measure) :
    (shrinkRounds target reason rounds s).2.Consistent measure ∧
      (s.recency.size ≤ rounds → (shrinkRounds target reason rounds s).2.size ≤ target) := by
  induction rounds generalizing s with
  | zero =>
    refine ⟨h, fun hsize => ?_⟩
    have zero := h.size_eq_zero (by
      rw [TreeMap.isEmpty_eq_size_eq_zero, beq_iff_eq]; omega)
    rw [UInt64.le_iff_toNat_le, shrinkRounds, zero]
    exact Nat.zero_le _
  | succ rounds ih =>
    rw [shrinkRounds]
    split
    · next hlt =>
      rcases h.dropOldest_cases with ⟨_, _, hzero⟩ | ⟨k, entry, _, he, hd⟩
      · rw [hzero] at hlt
        exact absurd hlt (by simp)
      · have used := h.size_recency_extract he
        have dropped := dropOldest_consistent h
        rw [hd] at dropped ⊢
        obtain ⟨kept, reached⟩ := ih dropped
        exact ⟨kept, fun hsize => reached (by simp only; omega)⟩
    · next hle => exact ⟨h, fun _ => UInt64.not_lt.mp hle⟩

theorem shrink_consistent (target : Count) (reason : Reason) (h : s.Consistent measure) :
    (s.shrink target reason).2.Consistent measure :=
  (shrinkRounds_consistent target reason _ h).1

theorem shrink_size_le (target : Count) (reason : Reason) (h : s.Consistent measure) :
    (s.shrink target reason).2.size ≤ target :=
  (shrinkRounds_consistent target reason _ h).2 (Nat.le_refl _)

/-! ## What evicting leaves alone -/

theorem shrink_induction {P : Store K V → Prop} (step : ∀ t, P t → P t.dropOldest.2)
    (target : Count) (reason : Reason) (h : P s) : P (s.shrink target reason).2 := by
  have rounds (n : Nat) : ∀ t, P t → P (shrinkRounds target reason n t).2 := by
    induction n with
    | zero => exact fun t ht => ht
    | succ n ih =>
      intro t ht
      rw [shrinkRounds]
      split
      · have kept := step t ht
        split
        · next hd => rw [hd] at kept; exact kept
        · next hd => rw [hd] at kept; exact ih _ kept
      · exact ht
  exact rounds _ s h

/-- The parts of a store that only uses of the cache change, and not evictions. -/
theorem dropOldest_frame (s : Store K V) :
    s.dropOldest.2.budget = s.budget ∧ s.dropOldest.2.nextRecency = s.nextRecency := by
  unfold dropOldest
  split
  · exact ⟨rfl, rfl⟩
  · dsimp only
    split <;> exact ⟨rfl, rfl⟩

theorem dropOldest_entries_none (hnone : s.entries[key]? = none) :
    s.dropOldest.2.entries[key]? = none := by
  unfold dropOldest
  split
  · exact hnone
  · dsimp only
    split
    · exact hnone
    · rw [HashMap.getElem?_erase, hnone, ite_self]

theorem shrink_nextRecency (target : Count) (reason : Reason) :
    (s.shrink target reason).2.nextRecency = s.nextRecency :=
  shrink_induction (P := fun t => t.nextRecency = s.nextRecency)
    (fun t ht => (dropOldest_frame t).2.trans ht) target reason rfl

theorem shrink_budget (target : Count) (reason : Reason) :
    (s.shrink target reason).2.budget = s.budget :=
  shrink_induction (P := fun t => t.budget = s.budget)
    (fun t ht => (dropOldest_frame t).1.trans ht) target reason rfl

theorem shrink_entries_none (target : Count) (reason : Reason) (hnone : s.entries[key]? = none) :
    (s.shrink target reason).2.entries[key]? = none :=
  shrink_induction (P := fun t => t.entries[key]? = none)
    (fun _ ht => dropOldest_entries_none ht) target reason hnone

theorem extract_frame (s : Store K V) (key : K) :
    (s.extract key).2.budget = s.budget ∧ (s.extract key).2.nextRecency = s.nextRecency := by
  unfold extract
  split <;> exact ⟨rfl, rfl⟩

/-! ## Uses of the cache -/

def roomFor (budget size : Count) : Count := if budget < size then 0 else budget - size

theorem roomFor_add_size_lt (budget size : Count) :
    (roomFor budget size).toNat + size.toNat < UInt64.size := by
  have hb : budget.toNat < UInt64.size := budget.toNat_lt
  have hs : size.toNat < UInt64.size := size.toNat_lt
  unfold roomFor
  split
  · simpa using hs
  · next hle =>
    rw [UInt64.not_lt] at hle
    rw [UInt64.toNat_sub_of_le _ _ hle]
    rw [UInt64.le_iff_toNat_le] at hle
    omega

/-- A put, step by step: the old entry out, room made, the new entry in. -/
theorem put_store (measure : K → V → Count) (s : Store K V) (key : K) (value : V) :
    (s.put measure key value).2 =
      ((({ s with puts := s.puts + 1 }.extract key).2.shrink
        (roomFor s.budget (measure key value)) .capacity).2).insert key value
          (measure key value) := by
  have shape : (s.put measure key value).2 =
      ((({ s with puts := s.puts + 1 }.extract key).2.shrink
        (roomFor ({ s with puts := s.puts + 1 }.extract key).2.budget (measure key value))
        .capacity).2).insert key value (measure key value) := rfl
  rw [shape, (extract_frame _ key).1]

theorem room_fits (h : s.Consistent measure) (budget size : Count) (reason : Reason) :
    (s.shrink (roomFor budget size) reason).2.size.toNat + size.toNat < UInt64.size := by
  have hle := shrink_size_le (roomFor budget size) reason h
  have hlt := roomFor_add_size_lt budget size
  rw [UInt64.le_iff_toNat_le] at hle
  omega

theorem put_consistent (h : s.Consistent measure) (key : K) (value : V) :
    (s.put measure key value).2.Consistent measure := by
  have counted : ({ s with puts := s.puts + 1 } : Store K V).Consistent measure :=
    h.congr .rfl rfl rfl rfl
  have out := extract_consistent counted key
  rw [put_store]
  exact insert_consistent (shrink_consistent _ _ out)
    (shrink_entries_none _ _ (extract_entries_self _ key)) ⟨key, BEq.rfl, rfl⟩
    (room_fits out s.budget (measure key value) .capacity)

theorem trimToShare_consistent (h : s.Consistent measure) (share : Float) :
    (s.trimToShare share).2.Consistent measure := by
  unfold trimToShare
  split
  · exact shrink_consistent _ _ h
  · exact h

/-- **Every use of the cache keeps the store consistent.** -/
theorem perform_consistent (h : s.Consistent measure) (use : CacheCall K V) :
    (s.perform measure use).2.2.Consistent measure := by
  cases use with
  | put key value => exact put_consistent h key value
  | get key =>
    simp only [perform, get]
    split
    · exact h.congr .rfl rfl rfl rfl
    · exact (markUsed_consistent h key).congr .rfl rfl rfl rfl
  | peek key => exact h
  | contains key => exact h
  | remove key => exact extract_consistent h key
  | trimToShare share => exact trimToShare_consistent h share
  | trimTo target => exact shrink_consistent _ _ h
  | relieve pressure => exact trimToShare_consistent h _
  | clear => exact clear_consistent s
  | setBudget budget =>
    exact shrink_consistent _ _ (h.congr (t := { s with budget := budget }) .rfl rfl rfl rfl)

def performAll (measure : K → V → Count) (s : Store K V) (uses : List (CacheCall K V)) :
    Store K V :=
  uses.foldl (fun s use => (s.perform measure use).2.2) s

theorem perform_nextRecency_le (s : Store K V) (use : CacheCall K V) :
    (s.perform measure use).2.2.nextRecency ≤ s.nextRecency + 1 := by
  have share (x : Float) : (s.trimToShare x).2.nextRecency = s.nextRecency := by
    unfold trimToShare
    split
    · exact shrink_nextRecency _ _
    · rfl
  cases use with
  | put key value =>
    show (s.put measure key value).2.nextRecency ≤ _
    rw [put_store]
    simp only [insert, shrink_nextRecency, (extract_frame _ key).2, Nat.le_refl]
  | get key =>
    simp only [perform, get]
    split
    · exact Nat.le_succ _
    · simp only [markUsed]
      split <;> exact Nat.le_refl _
  | peek key => exact Nat.le_succ _
  | contains key => exact Nat.le_succ _
  | remove key => exact Nat.le_succ_of_le (Nat.le_of_eq (extract_frame s key).2)
  | trimToShare x => exact Nat.le_succ_of_le (Nat.le_of_eq (share x))
  | trimTo target => exact Nat.le_succ_of_le (Nat.le_of_eq (shrink_nextRecency _ _))
  | relieve pressure => exact Nat.le_succ_of_le (Nat.le_of_eq (share _))
  | clear => exact Nat.le_succ _
  | setBudget budget =>
    exact Nat.le_succ_of_le (Nat.le_of_eq
      (shrink_nextRecency (s := { s with budget := budget }) budget .trimmed))

end Store

end ReadAhead
