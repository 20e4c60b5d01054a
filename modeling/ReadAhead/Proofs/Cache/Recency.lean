import Mathlib.Data.List.Basic
import ReadAhead.Proofs.Cache.Consistency

/-!
  Recency — the entries of a store in the order of use

  `Store.kept` reads a store as a list: its entries, the one used longest ago
  first. The numbers of last use are gone from it; all that is left of them is
  the order. Of a consistent store the list tells everything but the counters.

  What is proved:
    1. `kept_insert`, `kept_extract`, `kept_markUsed`, `kept_clear` — what each
       primitive does to the list. A new entry goes to its end, an entry that is
       taken out leaves the others as they are, one that is used moves to the end.
    2. `Consistent.dropOldest_kept` — the entry that is evicted is the first one.
    3. `shrink_kept` — evicting takes the entries off the front while the sum of
       their sizes exceeds the target (`evictTo`).
    4. `put_kept`, `get_kept` — what putting and looking up make of the list.
    5. `Consistent.find?_kept`, `Consistent.total_kept`,
       `Consistent.keysOldestFirst_kept` — what is found, how much there is of
       it, and in which order, is read off the list.
-/

namespace ReadAhead

open Std

/-! ## Maps ordered by numbers -/

section Numbers

variable {K : Type} {t : TreeMap Nat K}

/-- Two series of numbered elements in ascending order are the same if they have
the same members. -/
theorem eq_of_ascending {l l' : List (Nat × K)} (h : l.Pairwise fun p q => p.1 < q.1)
    (h' : l'.Pairwise fun p q => p.1 < q.1) (same : ∀ p, p ∈ l ↔ p ∈ l') : l = l' := by
  have distinct {m : List (Nat × K)} (hm : m.Pairwise fun p q => p.1 < q.1) : m.Nodup := by
    show m.Pairwise (· ≠ ·)
    refine hm.imp ?_
    rintro p q less rfl
    exact Nat.lt_irrefl _ less
  refine List.Perm.eq_of_pairwise ?_ h h'
    ((List.perm_ext_iff_of_nodup (distinct h) (distinct h')).mpr same)
  exact fun p q _ _ less less' => absurd less' (Nat.lt_asymm less)

theorem toList_ascending (t : TreeMap Nat K) : t.toList.Pairwise fun p q => p.1 < q.1 :=
  TreeMap.ordered_keys_toList.imp fun less => Nat.compare_eq_lt.mp less

theorem toList_insert_above {n : Nat} (above : ∀ m ∈ t, m < n) (key : K) :
    (t.insert n key).toList = t.toList ++ [(n, key)] := by
  refine eq_of_ascending (toList_ascending _) ?_ ?_
  · refine List.pairwise_append.mpr ⟨toList_ascending t, List.pairwise_singleton _ _, ?_⟩
    intro p hp q hq
    rw [List.mem_singleton.mp hq]
    exact above p.1 (TreeMap.mem_iff_isSome_getElem?.mpr
      (by rw [TreeMap.mem_toList_iff_getElem?_eq_some.mp hp]; rfl))
  · rintro ⟨m, k⟩
    have fresh : t[n]? = none := by
      rw [← Option.not_isSome_iff_eq_none, ← TreeMap.mem_iff_isSome_getElem?]
      exact fun hn => Nat.lt_irrefl n (above n hn)
    simp only [TreeMap.mem_toList_iff_getElem?_eq_some, List.mem_append, List.mem_singleton,
      TreeMap.getElem?_insert, Nat.compare_eq_eq]
    by_cases hn : n = m
    · subst hn
      simp [fresh, eq_comm]
    · simp [hn, Ne.symm hn]

theorem toList_erase_number (t : TreeMap Nat K) (n : Nat) :
    (t.erase n).toList = t.toList.filter fun p => p.1 != n := by
  refine eq_of_ascending (toList_ascending _) ((toList_ascending t).filter _) ?_
  rintro ⟨m, k⟩
  simp only [TreeMap.mem_toList_iff_getElem?_eq_some, List.mem_filter, TreeMap.getElem?_erase,
    Nat.compare_eq_eq]
  by_cases hn : n = m
  · simp [hn]
  · simp [hn, Ne.symm hn]

end Numbers

/-! ## The order of use -/

/-- An entry of a cache, without the number of its last use. -/
structure Kept (K V : Type) where
  key : K
  value : V
  size : Count
  deriving DecidableEq, Repr

namespace Kept

variable {K V : Type}

def leave (reason : Reason) (e : Kept K V) : Departure K V := ⟨e.key, e.value, reason⟩

def total (es : List (Kept K V)) : Nat := (es.map fun e => e.size.toNat).sum

/-- What is evicted off the front of some entries so that the rest is down to a
target, and the rest. -/
def evictTo (target : Nat) : List (Kept K V) → List (Kept K V) × List (Kept K V)
  | [] => ([], [])
  | e :: es =>
    if target < total (e :: es) then (e :: (evictTo target es).1, (evictTo target es).2)
    else ([], e :: es)

theorem evictTo_append (target : Nat) (es : List (Kept K V)) :
    (evictTo target es).1 ++ (evictTo target es).2 = es := by
  induction es with
  | nil => rfl
  | cons e es ih =>
    rw [evictTo]
    split
    · exact congrArg (e :: ·) ih
    · rfl

end Kept

namespace Store

set_option linter.unusedSectionVars false

section
variable {K V : Type} [BEq K] [Hashable K]

def kept? (s : Store K V) (key : K) : Option (Kept K V) :=
  s.entries[key]?.map fun entry => ⟨key, entry.value, entry.size⟩

/-- The entries, the one used longest ago first. -/
def kept (s : Store K V) : List (Kept K V) := s.recency.toList.filterMap fun p => s.kept? p.2

end

variable {K V : Type} [BEq K] [Hashable K] [EquivBEq K] [LawfulHashable K]
variable {measure : K → V → Count} {s : Store K V} {key : K} {entry : Resident V}

theorem kept_congr {t : Store K V} (recency : t.recency = s.recency)
    (entries : ∀ key : K, t.entries[key]? = s.entries[key]?) : t.kept = s.kept := by
  have found : t.kept? = s.kept? := by
    funext key
    rw [kept?, kept?, entries]
  rw [kept, kept, recency, found]

theorem Consistent.kept?_of_mem (h : s.Consistent measure) {p : Nat × K}
    (hp : p ∈ s.recency.toList) : ∃ entry, s.entries[p.2]? = some entry ∧
      entry.recency = p.1 ∧ s.kept? p.2 = some ⟨p.2, entry.value, entry.size⟩ := by
  have hn : s.recency[p.1]? = some p.2 := TreeMap.mem_toList_iff_getElem?_eq_some.mp hp
  obtain ⟨entry, he, hr⟩ := h.entry_of_recency hn
  exact ⟨entry, he, hr, by rw [kept?, he]; rfl⟩

theorem Consistent.mem_kept (h : s.Consistent measure) (he : s.entries[key]? = some entry) :
    ∃ e ∈ s.kept, (e.key == key) = true ∧ e.value = entry.value ∧ e.size = entry.size := by
  obtain ⟨k, hk, hkk⟩ := h.recency_of_entry he
  refine ⟨⟨k, entry.value, entry.size⟩, ?_, hkk, rfl, rfl⟩
  refine List.mem_filterMap.mpr ⟨(entry.recency, k), ?_, ?_⟩
  · exact TreeMap.mem_toList_iff_getElem?_eq_some.mpr hk
  · rw [kept?, HashMap.getElem?_congr hkk, he]
    rfl

theorem entry_of_mem_kept {e : Kept K V} (he : e ∈ s.kept) :
    ∃ entry, s.entries[e.key]? = some entry ∧ entry.value = e.value ∧ entry.size = e.size := by
  obtain ⟨p, _, found⟩ := List.mem_filterMap.mp he
  obtain ⟨entry, hentry, rfl⟩ := Option.map_eq_some_iff.mp found
  exact ⟨entry, hentry, rfl, rfl⟩

theorem Consistent.kept_apart (h : s.Consistent measure) :
    s.kept.Pairwise fun a b => (a.key == b.key) = false := by
  refine List.pairwise_filterMap.mpr ((toList_ascending s.recency).imp_of_mem ?_)
  intro p q hp hq less a ha b hb
  obtain ⟨entry, he, hr, found⟩ := h.kept?_of_mem hp
  obtain ⟨entry', he', hr', found'⟩ := h.kept?_of_mem hq
  rw [found, Option.some.injEq] at ha
  rw [found', Option.some.injEq] at hb
  subst ha hb
  rw [Bool.eq_false_iff]
  intro same
  rw [HashMap.getElem?_congr same, he', Option.some.injEq] at he
  rw [← hr, ← hr', he] at less
  exact Nat.lt_irrefl _ less

theorem Consistent.keysOldestFirst_kept (h : s.Consistent measure) :
    s.keysOldestFirst = s.kept.map (·.key) := by
  have keys : ∀ p ∈ s.recency.toList, (s.kept? p.2).map (·.key) = some p.2 := by
    intro p hp
    obtain ⟨entry, _, _, found⟩ := h.kept?_of_mem hp
    rw [found]
    rfl
  calc s.recency.toList.map (·.2)
    _ = s.recency.toList.filterMap fun p => some p.2 := (congrFun List.filterMap_eq_map' _).symm
    _ = s.recency.toList.filterMap fun p => (s.kept? p.2).map (·.key) :=
      (List.filterMap_congr keys).symm
    _ = s.kept.map (·.key) := List.map_filterMap.symm

theorem Consistent.find?_kept (h : s.Consistent measure) (key : K) :
    s.find? key = (s.kept.find? (·.key == key)).map (·.value) := by
  cases he : s.entries[key]? with
  | none =>
    have absent : s.kept.find? (·.key == key) = none := by
      rw [List.find?_eq_none]
      intro e hmem same
      obtain ⟨entry, hentry, _⟩ := entry_of_mem_kept hmem
      rw [HashMap.getElem?_congr same, he] at hentry
      cases hentry
    rw [find?, he, absent]
    rfl
  | some entry =>
    obtain ⟨e, hmem, hkey, _⟩ := h.mem_kept he
    have present : (s.kept.find? (·.key == key)).isSome = true :=
      List.find?_isSome.mpr ⟨e, hmem, hkey⟩
    obtain ⟨e', found⟩ := Option.isSome_iff_exists.mp present
    obtain ⟨entry', he', value, _⟩ := entry_of_mem_kept (List.mem_of_find?_eq_some found)
    have same : (e'.key == key) = true := by simpa using List.find?_some found
    rw [HashMap.getElem?_congr same, he, Option.some.injEq] at he'
    rw [find?, he, found, Option.map_some, Option.map_some, ← value, he']

/-! ## The primitives -/

theorem kept_insert (h : s.Consistent measure) (hnone : s.entries[key]? = none) (value : V)
    (size : Count) : (s.insert key value size).kept = s.kept ++ [⟨key, value, size⟩] := by
  have others : ∀ p ∈ s.recency.toList, (s.insert key value size).kept? p.2 = s.kept? p.2 := by
    intro p hp
    obtain ⟨entry, he, _, _⟩ := h.kept?_of_mem hp
    have differs : ¬ (key == p.2) = true := by
      intro same
      rw [HashMap.getElem?_congr same, he] at hnone
      cases hnone
    rw [kept?, kept?, insert, HashMap.getElem?_insert, if_neg differs]
  have new : (s.insert key value size).kept? key = some ⟨key, value, size⟩ := by
    rw [kept?, insert, HashMap.getElem?_insert, if_pos BEq.rfl]
    rfl
  calc (s.insert key value size).kept
    _ = (s.recency.toList ++ [(s.nextRecency, key)]).filterMap fun p =>
          (s.insert key value size).kept? p.2 := by
      rw [← toList_insert_above h.below]
      rfl
    _ = s.kept ++ [⟨key, value, size⟩] := by
      rw [List.filterMap_append, List.filterMap_congr others,
        List.filterMap_cons_some (b := ⟨key, value, size⟩) new]
      rfl

theorem extract_answer (s : Store K V) (key : K) : (s.extract key).1 = s.find? key := by
  rw [extract, find?]
  split <;> rename_i he <;> rw [he] <;> rfl

theorem get_answer (s : Store K V) (key : K) : (s.get key).1 = s.find? key := by
  rw [get]
  split <;> rename_i found <;> rw [found]

theorem contains_answer (s : Store K V) (key : K) : s.contains key = (s.find? key).isSome := by
  rw [contains, find?, HashMap.contains_eq_isSome_getElem?, Option.isSome_map]

theorem kept_extract (h : s.Consistent measure) (key : K) :
    (s.extract key).2.kept = s.kept.filter fun e => !(e.key == key) := by
  cases he : s.entries[key]? with
  | none =>
    have all : s.kept.filter (fun e => !(e.key == key)) = s.kept := by
      rw [List.filter_eq_self]
      intro e hmem
      obtain ⟨entry, hentry, _⟩ := entry_of_mem_kept hmem
      rw [Bool.not_eq_true', Bool.eq_false_iff]
      intro same
      rw [HashMap.getElem?_congr same, he] at hentry
      cases hentry
    rw [all, extract, he]
  | some entry =>
    -- the number and the key that are erased belong to each other
    have paired : ∀ p ∈ s.recency.toList,
        (if (p.1 != entry.recency) = true then (s.extract key).2.kept? p.2 else none)
          = (s.kept? p.2).filter fun e => !(e.key == key) := by
      intro p hp
      obtain ⟨entry', he', hr, found⟩ := h.kept?_of_mem hp
      rw [found]
      by_cases same : (p.2 == key) = true
      · rw [HashMap.getElem?_congr same, he, Option.some.injEq] at he'
        simp [same, he', ← hr, Option.filter]
      · have differs : p.1 ≠ entry.recency := by
          intro equal
          obtain ⟨k, hk, hkk⟩ := h.recency_of_entry he
          rw [← equal, TreeMap.mem_toList_iff_getElem?_eq_some.mp hp, Option.some.injEq] at hk
          exact same (hk ▸ hkk)
        have apart : ¬ (key == p.2) = true := fun back => same (BEq.symm back)
        simp [differs, same, kept?, extract, he, HashMap.getElem?_erase, apart, he', Option.filter]
    calc (s.extract key).2.kept
      _ = (s.recency.toList.filter fun p => p.1 != entry.recency).filterMap fun p =>
            (s.extract key).2.kept? p.2 := by
        rw [← toList_erase_number, kept, extract, he]
      _ = s.kept.filter fun e => !(e.key == key) := by
        rw [List.filterMap_filter, List.filterMap_congr paired, kept, List.filter_filterMap]

theorem kept_markUsed (h : s.Consistent measure) (he : s.entries[key]? = some entry) :
    (s.markUsed key).kept
      = (s.kept.filter fun e => !(e.key == key)) ++ [⟨key, entry.value, entry.size⟩] := by
  rw [← kept_extract h key, ← kept_insert (extract_consistent h key) (extract_entries_self s key)]
  refine kept_congr ?_ ?_
  · simp only [insert, extract, markUsed, he]
  · intro k
    simp only [insert, extract, markUsed, he]
    exact (insert_equiv_erase_insert _ _ _).getElem?_eq

theorem kept_clear (s : Store K V) :
    s.clear.1 = s.kept.map (Kept.leave .cleared) ∧ s.clear.2.kept = [] := by
  constructor
  · rw [clear, keysOldestFirst, kept, List.filterMap_map, List.map_filterMap]
    refine List.filterMap_congr fun p _ => ?_
    simp only [Function.comp_apply, kept?, Option.map_map]
    rfl
  · rfl

/-! ## Evicting -/

theorem oldest?_eq_head? (s : Store K V) : s.oldest? = s.recency.toList.head? := by
  cases hl : s.recency.toList with
  | nil =>
    have no_key : s.recency.minKey? = none := by
      rw [TreeMap.minKey?_eq_head?_keys, ← TreeMap.map_fst_toList_eq_keys, hl]
      rfl
    simp [oldest?, no_key]
  | cons p rest =>
    have first : s.recency.minKey? = some p.1 := by
      rw [TreeMap.minKey?_eq_head?_keys, ← TreeMap.map_fst_toList_eq_keys, hl]
      rfl
    have key : s.recency[p.1]? = some p.2 :=
      TreeMap.mem_toList_iff_getElem?_eq_some.mp (hl ▸ List.mem_cons_self)
    simp [oldest?, first, key]

/-- **Evicting takes the first entry**, if there is one. -/
theorem Consistent.dropOldest_kept (h : s.Consistent measure) :
    (s.kept = [] ∧ s.recency.size = 0) ∨
    ∃ e, s.dropOldest = (some (e.key, e.value),
        { (s.extract e.key).2 with evictions := s.evictions + 1 }) ∧
      s.kept = e :: (s.extract e.key).2.kept ∧
      ∃ entry, s.entries[e.key]? = some entry ∧ entry.size = e.size := by
  rcases h.dropOldest_cases with ⟨ho, _, _⟩ | ⟨k, entry, ho, he, hd⟩
  · rw [oldest?_eq_head?, List.head?_eq_none_iff] at ho
    refine .inl ⟨by rw [kept, ho]; rfl, ?_⟩
    rw [← TreeMap.length_toList, ho]
    rfl
  · refine .inr ⟨⟨k, entry.value, entry.size⟩, hd, ?_, entry, he, rfl⟩
    rw [oldest?_eq_head?, List.head?_eq_some_iff] at ho
    obtain ⟨rest, ho⟩ := ho
    have first : s.kept? k = some ⟨k, entry.value, entry.size⟩ := by
      rw [kept?, he]
      rfl
    have split : s.kept = ⟨k, entry.value, entry.size⟩ :: rest.filterMap fun p => s.kept? p.2 := by
      rw [kept, ho, List.filterMap_cons_some (b := ⟨k, entry.value, entry.size⟩) first]
    have apart := h.kept_apart
    rw [split, List.pairwise_cons] at apart
    rw [kept_extract h, split, List.filter_cons_of_neg (by simp)]
    congr 1
    refine (List.filter_eq_self.mpr ?_).symm
    intro e hmem
    have differs := apart.1 e hmem
    rw [BEq.comm] at differs
    simpa using differs

theorem Consistent.size_extract (h : s.Consistent measure) (he : s.entries[key]? = some entry) :
    (s.extract key).2.size.toNat + entry.size.toNat = s.size.toNat ∧
      (s.extract key).2.length + 1 = s.length := by
  have hle := h.size_le he
  have present : key ∈ s.entries := by
    rw [HashMap.mem_iff_isSome_getElem?, he]
    rfl
  have filled : s.entries.size ≠ 0 := by
    intro zero
    rw [HashMap.getElem?_of_isEmpty (by rw [HashMap.isEmpty_eq_size_eq_zero, zero]; rfl)] at he
    cases he
  simp only [extract, he, length, HashMap.size_erase, if_pos present,
    UInt64.toNat_sub_of_le _ _ hle]
  rw [UInt64.le_iff_toNat_le] at hle
  omega

theorem Consistent.total_kept (h : s.Consistent measure) :
    Kept.total s.kept = s.size.toNat ∧ s.kept.length = s.length := by
  induction hn : s.recency.size generalizing s with
  | zero =>
    rcases h.dropOldest_kept with ⟨empty, _⟩ | ⟨e, _, _, entry, he, _⟩
    · have numbers : s.recency.isEmpty = true := by
        rw [TreeMap.isEmpty_eq_size_eq_zero, hn]
        rfl
      have entries : s.entries.toList = [] := by
        refine toList_eq_nil fun key => ?_
        cases he : s.entries[key]? with
        | none => rfl
        | some entry =>
          obtain ⟨e, hmem, _⟩ := h.mem_kept he
          rw [empty] at hmem
          cases hmem
      rw [empty, h.size_eq_zero numbers, length, ← HashMap.length_toList, entries]
      exact ⟨rfl, rfl⟩
    · have used := h.size_recency_extract he
      omega
  | succ n ih =>
    rcases h.dropOldest_kept with ⟨_, zero⟩ | ⟨e, _, split, entry, he, size⟩
    · omega
    · have used := h.size_recency_extract he
      have less := h.size_extract he
      obtain ⟨total, length⟩ := ih (extract_consistent h e.key) (by omega)
      rw [split, List.length_cons, length, less.2, Kept.total, List.map_cons, List.sum_cons]
      rw [Kept.total] at total
      refine ⟨?_, rfl⟩
      rw [total, ← size, Nat.add_comm]
      exact less.1

theorem shrink_kept (h : s.Consistent measure) (target : Count) (reason : Reason) :
    (s.shrink target reason).1 = (Kept.evictTo target.toNat s.kept).1.map (Kept.leave reason) ∧
      (s.shrink target reason).2.kept = (Kept.evictTo target.toNat s.kept).2 := by
  have rounds (n : Nat) : ∀ t : Store K V, t.Consistent measure → t.recency.size ≤ n →
      (shrinkRounds target reason n t).1
          = (Kept.evictTo target.toNat t.kept).1.map (Kept.leave reason) ∧
        (shrinkRounds target reason n t).2.kept = (Kept.evictTo target.toNat t.kept).2 := by
    induction n with
    | zero =>
      intro t ht few
      rcases ht.dropOldest_kept with ⟨empty, _⟩ | ⟨e, _, _, entry, he, _⟩
      · rw [shrinkRounds, empty]
        exact ⟨rfl, rfl⟩
      · have used := ht.size_recency_extract he
        omega
    | succ n ih =>
      intro t ht few
      rw [shrinkRounds]
      have exceeds : target < t.size ↔ target.toNat < Kept.total t.kept := by
        rw [ht.total_kept.1, UInt64.lt_iff_toNat_lt]
      rcases ht.dropOldest_kept with ⟨empty, _⟩ | ⟨e, hd, split, entry, he, _⟩
      · rw [empty] at exceeds
        rw [if_neg fun more => Nat.not_lt_zero _ (exceeds.mp more), empty]
        exact ⟨rfl, rfl⟩
      · rw [split] at exceeds
        rw [split, Kept.evictTo]
        by_cases more : target < t.size
        · have used := ht.size_recency_extract he
          have dropped := dropOldest_consistent ht
          rw [hd] at dropped
          obtain ⟨left, stays⟩ := ih _ dropped (by simp only; omega)
          rw [if_pos more, if_pos (exceeds.mp more), hd]
          exact ⟨congrArg _ left, stays⟩
        · rw [if_neg more, if_neg (mt exceeds.mpr more)]
          exact ⟨rfl, split⟩
  exact rounds _ s h (Nat.le_refl _)

/-! ## Putting and looking up -/

theorem toNat_roomFor (budget size : Count) : (roomFor budget size).toNat
    = if budget < size then 0 else budget.toNat - size.toNat := by
  unfold roomFor
  split
  · rfl
  · next fits => exact UInt64.toNat_sub_of_le _ _ (UInt64.not_lt.mp fits)

theorem put_kept (h : s.Consistent measure) (key : K) (value : V) :
    let size := measure key value
    let others := s.kept.filter fun e => !(e.key == key)
    let parts := Kept.evictTo (roomFor s.budget size).toNat others
    (s.put measure key value).1
        = ((s.find? key).map (⟨key, ·, .replaced⟩)).toList ++ parts.1.map (Kept.leave .capacity) ∧
      (s.put measure key value).2.kept = parts.2 ++ [⟨key, value, size⟩] := by
  intro size others parts
  let counted : Store K V := { s with puts := s.puts + 1 }
  have hc : counted.Consistent measure := h.congr .rfl rfl rfl rfl
  have out := extract_consistent hc key
  have room := shrink_kept out (roomFor s.budget size) .capacity
  rw [kept_extract hc key] at room
  have old : (counted.extract key).1 = s.find? key := extract_answer counted key
  constructor
  · have shape : (s.put measure key value).1 = ((counted.extract key).1.map
        (⟨key, ·, .replaced⟩)).toList ++ ((counted.extract key).2.shrink
          (roomFor (counted.extract key).2.budget size) .capacity).1 := rfl
    rw [shape, old, (extract_frame counted key).1, show counted.budget = s.budget from rfl, room.1]
    rfl
  · rw [put_store, kept_insert (shrink_consistent _ _ out)
      (shrink_entries_none _ _ (extract_entries_self _ key)), room.2]
    rfl

/-- A look-up that finds an entry moves it to the end; any other leaves the list
alone. -/
theorem get_kept (h : s.Consistent measure) (key : K) :
    (s.get key).2.kept = match s.kept.find? (·.key == key) with
      | none => s.kept
      | some e => (s.kept.filter fun e => !(e.key == key)) ++ [⟨key, e.value, e.size⟩] := by
  cases hf : s.kept.find? (·.key == key) with
  | none =>
    have missing : s.find? key = none := by rw [h.find?_kept, hf]; rfl
    rw [get, missing]
    rfl
  | some e =>
    have present : s.find? key = some e.value := by rw [h.find?_kept, hf]; rfl
    obtain ⟨entry, he, value, size⟩ := entry_of_mem_kept (List.mem_of_find?_eq_some hf)
    have same : (e.key == key) = true := by simpa using List.find?_some hf
    rw [HashMap.getElem?_congr same] at he
    rw [get, present]
    simp only [← value, ← size]
    exact kept_markUsed h he
end Store

end ReadAhead
