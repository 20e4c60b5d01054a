import ReadAhead.Proofs.Cache.Consistency

/-!
  Arithmetic of the store — no size overflows, no eviction runs into the void

  The operations of the store calculate with 64-bit words, which wrap. Here they
  are written a second time with their assertions: the checked ones stop at a
  sum of sizes that does not fit a word, at a size that is taken off a smaller
  one, and at a number of last use without an entry.

  What is proved:
    1. `performChecked_eq` — on a consistent store no assertion fails, and the
       checked operation does what the operation does.
    2. `count_keysOldestFirst` — every resident key occurs once in the order of
       use, and nothing else does.
    3. `session_store_sound` — every store that a session comes to from an empty
       cache is consistent, whatever the hook does, and so nothing that is done
       with it next fails an assertion.
-/

namespace ReadAhead

open Std

namespace Store

/-! ## Operations with their assertions -/

section Checked
variable {K V : Type} [BEq K] [Hashable K]

/-- Adds an entry, if the sum of the sizes fits a word. -/
def insertChecked (s : Store K V) (key : K) (value : V) (size : Count) : Option (Store K V) :=
  if s.size.toNat + size.toNat < UInt64.size then some (s.insert key value size) else none

def extractChecked (s : Store K V) (key : K) : Option (Option V × Store K V) :=
  match s.entries[key]? with
  | none => some (s.extract key)
  | some entry => if entry.size ≤ s.size then some (s.extract key) else none

/-- Evicts an entry, if there is one behind the smallest number and its size is
no more than that of all. -/
def dropOldestChecked (s : Store K V) : Option (Option (K × V) × Store K V) :=
  match s.oldest? with
  | none => some s.dropOldest
  | some (_, key) =>
    match s.entries[key]? with
    | none => none
    | some entry => if entry.size ≤ s.size then some s.dropOldest else none

def shrinkRoundsChecked (target : Count) (reason : Reason) :
    Nat → Store K V → Option (List (Departure K V) × Store K V)
  | 0, s => some ([], s)
  | rounds + 1, s =>
    if target < s.size then
      match s.dropOldestChecked with
      | none => none
      | some (none, s) => some ([], s)
      | some (some (key, value), s) =>
        (shrinkRoundsChecked target reason rounds s).map fun (rest, s) =>
          (⟨key, value, reason⟩ :: rest, s)
    else some ([], s)

def shrinkChecked (s : Store K V) (target : Count) (reason : Reason) :
    Option (List (Departure K V) × Store K V) :=
  shrinkRoundsChecked target reason s.recency.size s

/-- The room to be made for a new entry, if its size can be taken off the
budget where that is done. -/
def roomForChecked (budget size : Count) : Option Count :=
  if budget < size then some 0 else if size ≤ budget then some (budget - size) else none

def putChecked (measure : K → V → Count) (s : Store K V) (key : K) (value : V) :
    Option (List (Departure K V) × Store K V) := do
  let size := measure key value
  let (old, s) ← { s with puts := s.puts + 1 }.extractChecked key
  let target ← roomForChecked s.budget size
  let (evicted, s) ← s.shrinkChecked target .capacity
  let s ← s.insertChecked key value size
  return ((old.map (⟨key, ·, .replaced⟩)).toList ++ evicted, s)

def trimToShareChecked (s : Store K V) (share : Float) :
    Option (List (Departure K V) × Store K V) :=
  if share.isFinite then s.shrinkChecked (shareOf s.budget share) .trimmed else some ([], s)

def performChecked (measure : K → V → Count) (s : Store K V) :
    CacheCall K V → Option (CacheAnswer V × List (Departure K V) × Store K V)
  | .put key value => (s.putChecked measure key value).map (.done, ·)
  | .remove key => (s.extractChecked key).map fun (found, s) => (.value found, [], s)
  | .trimToShare share =>
    (s.trimToShareChecked share).map fun (departed, s) =>
      (.evicted departed.length, departed, s)
  | .trimTo target =>
    (s.shrinkChecked target .trimmed).map fun (departed, s) =>
      (.evicted departed.length, departed, s)
  | .relieve pressure =>
    (s.trimToShareChecked pressure.retainedShare).map fun (departed, s) =>
      (.evicted departed.length, departed, s)
  | .setBudget budget =>
    ({ s with budget := budget }.shrinkChecked budget .trimmed).map (.done, ·)
  -- the others calculate with no size
  | use => some (s.perform measure use)

end Checked

/-! ## No assertion fails -/

variable {K V : Type} [BEq K] [Hashable K] [EquivBEq K] [LawfulHashable K]
variable {measure : K → V → Count} {s : Store K V}

theorem extractChecked_eq (h : s.Consistent measure) (key : K) :
    s.extractChecked key = some (s.extract key) := by
  unfold extractChecked
  split
  · rfl
  · next entry he => rw [if_pos (h.size_le he)]

theorem dropOldestChecked_eq (h : s.Consistent measure) :
    s.dropOldestChecked = some s.dropOldest := by
  rcases h.dropOldest_cases with ⟨ho, _, _⟩ | ⟨k, entry, ho, he, _⟩
  · simp only [dropOldestChecked, ho]
  · simp only [dropOldestChecked, ho, he]
    rw [if_pos (h.size_le he)]

theorem shrinkChecked_eq (h : s.Consistent measure) (target : Count) (reason : Reason) :
    s.shrinkChecked target reason = some (s.shrink target reason) := by
  have rounds (n : Nat) : ∀ t : Store K V, t.Consistent measure →
      shrinkRoundsChecked target reason n t = some (shrinkRounds target reason n t) := by
    induction n with
    | zero => exact fun t _ => rfl
    | succ n ih =>
      intro t ht
      rw [shrinkRoundsChecked, shrinkRounds, dropOldestChecked_eq ht]
      split
      · have kept := dropOldest_consistent ht
        split
        · next hd => simp at hd
        · next hd => rw [Option.some.inj hd]
        · next k v t' hd =>
          rw [Option.some.inj hd] at kept ⊢
          rw [ih t' kept]
          rfl
      · rfl
  exact rounds _ s h

theorem roomForChecked_eq (budget size : Count) :
    roomForChecked budget size = some (roomFor budget size) := by
  unfold roomForChecked roomFor
  split
  · rfl
  · next hle => rw [if_pos (UInt64.not_lt.mp hle)]

theorem putChecked_eq (h : s.Consistent measure) (key : K) (value : V) :
    s.putChecked measure key value = some (s.put measure key value) := by
  have counted : ({ s with puts := s.puts + 1 } : Store K V).Consistent measure :=
    h.congr .rfl rfl rfl rfl
  have out := extract_consistent counted key
  have fits := room_fits out ({ s with puts := s.puts + 1 }.extract key).2.budget
    (measure key value) .capacity
  unfold putChecked
  simp only [extractChecked_eq counted, roomForChecked_eq, shrinkChecked_eq out, insertChecked,
    if_pos fits, bind, Option.bind_some, pure]
  rfl

theorem trimToShareChecked_eq (h : s.Consistent measure) (share : Float) :
    s.trimToShareChecked share = some (s.trimToShare share) := by
  unfold trimToShareChecked trimToShare
  split
  · exact shrinkChecked_eq h _ _
  · rfl

theorem performChecked_eq (h : s.Consistent measure) (use : CacheCall K V) :
    s.performChecked measure use = some (s.perform measure use) := by
  cases use with
  | put key value => rw [performChecked, putChecked_eq h]; rfl
  | get key => rfl
  | peek key => rfl
  | contains key => rfl
  | remove key => rw [performChecked, extractChecked_eq h]; rfl
  | trimToShare share => rw [performChecked, trimToShareChecked_eq h]; rfl
  | trimTo target => rw [performChecked, shrinkChecked_eq h]; rfl
  | relieve pressure => rw [performChecked, trimToShareChecked_eq h]; rfl
  | clear => rfl
  | setBudget budget =>
    have changed : ({ s with budget := budget } : Store K V).Consistent measure :=
      h.congr .rfl rfl rfl rfl
    rw [performChecked, shrinkChecked_eq changed]
    rfl

/-! ## Every resident key is in the order of use, once -/

theorem count_keysOldestFirst (h : s.Consistent measure) (key : K) :
    s.keysOldestFirst.count key = if s.contains key then 1 else 0 := by
  have numbers (p : Nat × K) (hp : p ∈ s.recency.toList) : (p.2 == key) = true ↔
      ∃ entry, s.entries[key]? = some entry ∧ entry.recency = p.1 := by
    have hk : s.recency[p.1]? = some p.2 := TreeMap.mem_toList_iff_getElem?_eq_some.mp hp
    rw [← h.inverse p.1 key]
    constructor
    · exact fun hb => ⟨p.2, hk, hb⟩
    · rintro ⟨k, hk', hb⟩
      rw [hk] at hk'
      rw [Option.some.inj hk']
      exact hb
  rw [keysOldestFirst, List.count, List.countP_map]
  cases he : s.entries[key]? with
  | none =>
    have absent : s.contains key = false := by
      rw [contains, HashMap.contains_eq_isSome_getElem?, he]; rfl
    rw [absent, List.countP_eq_zero.mpr]
    · rfl
    · intro p hp hb
      obtain ⟨entry, he', _⟩ := (numbers p hp).mp hb
      rw [he] at he'
      simp at he'
  | some entry =>
    have present : s.contains key = true := by
      rw [contains, HashMap.contains_eq_isSome_getElem?, he]; rfl
    -- its number is the one that leads to it, and numbers occur once
    obtain ⟨k, hk, _⟩ := h.recency_of_entry he
    have once : (s.recency.toList.map (·.1)).count entry.recency = 1 := by
      have hm : entry.recency ∈ s.recency.keys := by
        rw [TreeMap.mem_keys, TreeMap.mem_iff_isSome_getElem?, hk]; rfl
      rw [TreeMap.map_fst_toList_eq_keys, TreeMap.nodup_keys.count, if_pos hm]
    rw [present, if_pos rfl, ← once, List.count, List.countP_map]
    refine List.countP_congr fun p hp => ?_
    simp only [Function.comp_apply, beq_iff_eq]
    rw [numbers p hp]
    constructor
    · rintro ⟨e, he', hr⟩
      rw [he] at he'
      rw [← hr, Option.some.inj he']
    · exact fun hr => ⟨entry, he, hr.symm⟩

end Store

/-! ## Sessions -/

namespace Session

variable {K V : Type} [BEq K] [Hashable K]
variable {measure : K → V → Count} {hook : ReleaseHook K V}

theorem step_call (store : Store K V) (history : List (CacheEvent K V)) (use : CacheCall K V)
    (next : CacheAnswer V → CacheProgram K V) (rest : List (Remainder K V)) :
    step measure hook ⟨store, history, .program (.call use next) :: rest⟩
      = some ⟨(store.perform measure use).2.2, .called use (store.perform measure use).1 :: history,
          .release (store.perform measure use).2.1
            :: .program (next (store.perform measure use).1) :: rest⟩ := rfl

/-- A step of a session is a use of the cache, or leaves the store alone. -/
theorem step_store {s t : Session K V} (h : s.step measure hook = some t) :
    t.store = s.store ∨ ∃ use, t.store = (s.store.perform measure use).2.2 := by
  unfold step at h
  split at h
  · simp at h
  · obtain rfl := Option.some.inj h; exact Or.inl rfl
  · next use next rest _ => obtain rfl := Option.some.inj h; exact Or.inr ⟨use, rfl⟩
  · obtain rfl := Option.some.inj h; exact Or.inl rfl
  · obtain rfl := Option.some.inj h; exact Or.inl rfl

/-- What holds after so many uses of the cache holds after so many steps of a
session, if it may also hold later. -/
theorem advance_induction {P : Nat → Store K V → Prop}
    (idle : ∀ n s, P n s → P (n + 1) s)
    (use : ∀ n s c, P n s → P (n + 1) (s.perform measure c).2.2)
    (steps : Nat) {n : Nat} {s : Session K V} (h : P n s.store) :
    P (n + steps) (s.advance measure hook steps).store := by
  induction steps generalizing n s with
  | zero => exact h
  | succ steps ih =>
    rw [advance]
    cases hs : s.step measure hook with
    | none =>
      -- the session is over, and stays where it is
      have later (k : Nat) : P (n + k) s.store := by
        induction k with
        | zero => exact h
        | succ k ihk => exact idle _ _ ihk
      exact later (steps + 1)
    | some t =>
      rw [Nat.add_comm steps 1, ← Nat.add_assoc]
      refine ih ?_
      rcases step_store hs with heq | ⟨c, heq⟩
      · rw [heq]; exact idle n _ h
      · rw [heq]; exact use n s.store c h

theorem store_consistent [EquivBEq K] [LawfulHashable K] (measure : K → V → Count)
    (hook : ReleaseHook K V) (budget : Count) (p : CacheProgram K V) (steps : Nat) :
    ((start (.empty budget) p).advance measure hook steps).store.Consistent measure :=
  advance_induction (P := fun _ t => t.Consistent measure) (fun _ _ ht => ht)
    (fun _ _ use ht => Store.perform_consistent ht use) steps (n := 0)
    (Store.empty_consistent budget)

end Session

variable {K V : Type} [BEq K] [Hashable K] [EquivBEq K] [LawfulHashable K]

/-- **The maps belong together and the sizes are exact.** Whatever a program and
the hook do with a cache that starts empty, after any number of steps the store
is consistent, its order of use has every resident key once and nothing else, no
more numbers were given out than steps were taken, and nothing that is done next
comes to a sum that overflows, a difference below zero or a number without an
entry. -/
theorem session_store_sound (measure : K → V → Count) (hook : ReleaseHook K V) (budget : Count)
    (p : CacheProgram K V) (steps : Nat) :
    let s := ((Session.start (.empty budget) p).advance measure hook steps).store
    s.Consistent measure ∧
    (∀ key, s.keysOldestFirst.count key = if s.contains key then 1 else 0) ∧
    s.nextRecency ≤ steps ∧
    ∀ use, s.performChecked measure use = some (s.perform measure use) := by
  intro s
  have h : s.Consistent measure ∧ s.nextRecency ≤ 0 + steps :=
    Session.advance_induction (P := fun n t => t.Consistent measure ∧ t.nextRecency ≤ n)
      (fun _ _ ht => ⟨ht.1, Nat.le_succ_of_le ht.2⟩)
      (fun _ t c ht => ⟨Store.perform_consistent ht.1 c,
        Nat.le_trans (Store.perform_nextRecency_le t c) (Nat.succ_le_succ ht.2)⟩)
      steps ⟨Store.empty_consistent budget, Nat.le_refl 0⟩
  rw [Nat.zero_add] at h
  exact ⟨h.1, Store.count_keysOldestFirst h.1, h.2, Store.performChecked_eq h.1⟩

/-- A hook that puts what had to make room back under another key, at half its
size. -/
def demoting : ReleaseHook Nat Count := fun _ d =>
  if d.reason = .capacity ∧ 2 ≤ d.value then .ofCalls [.put (d.key + 100) (d.value / 2)] else .done

/-- With numbers as keys, values of their own size, a hook that uses the cache
again, and an entry of the largest size in a budget of ten. -/
theorem session_store_sound_demoting :
    let measure : Nat → Count → Count := fun _ v => v
    let s := ((Session.start (.empty 10) (.ofCalls
      [.put 1 6, .put 2 7, .get 2, .put 3 Count.largest, .setBudget Count.largest])).advance
        measure demoting 60).store
    s.Consistent measure ∧
    (∀ key, s.keysOldestFirst.count key = if s.contains key then 1 else 0) ∧
    s.nextRecency ≤ 60 ∧
    ∀ use, s.performChecked measure use = some (s.perform measure use) :=
  session_store_sound (fun _ v => v) demoting 10 _ 60

end ReadAhead
