import Mathlib.Data.List.Permutation
import ReadAhead.Proofs.Cache.ListCache

/-!
  Inclusion — a larger budget loses no entry

  Two caches are used alike, and all entries are of one size. A look-up may find an
  entry in the larger cache only, which then has another order of use than before,
  while nothing changes in the smaller one. Still the smaller cache is always part of
  the larger one: its entries are among those of the other, in the same order.

  That alone would not last. To make room both caches drop entries from the front, and
  what the larger one drops must be no more than what the smaller one does. It is no
  more because the larger cache has at no time more entries beyond those of the
  smaller one than it has room for (`Within.spare`).

  What is proved:
    1. `evictTo_eq_drop` — making room among entries of one size is dropping all but
       as many of them as fit.
    2. `Within.without`, `Within.get`, `Within.put` — each use keeps one cache within
       the other.
    3. `Within.find?` — what the smaller cache finds, the larger one finds as well.
    4. `larger_budget_keeps` — so after any such uses, whatever is in the smaller
       cache is in the larger one, in the same order, and what succeeds on the smaller
       one succeeds on the larger one with the same answer.
    5. `larger_budget_keeps_two` (anti-vacuity) — two caches that differ.
-/

namespace ReadAhead

set_option linter.unusedSectionVars false

/-- A use that leaves the budget as it is, shrinks nothing on purpose, and puts
nothing but entries of one size. -/
def CacheCall.Uniform {K V : Type} (measure : K → V → Count) (size : Count) :
    CacheCall K V → Prop
  | .put key value => measure key value = size
  | .get _ | .peek _ | .contains _ | .remove _ => True
  | .trimToShare _ | .trimTo _ | .relieve _ | .clear | .setBudget _ => False

/-! ## Entries of one size -/

namespace Kept

variable {K V : Type} {size : Count}

theorem total_of_sized {es : List (Kept K V)} (sized : ∀ e ∈ es, e.size = size) :
    total es = es.length * size.toNat := by
  induction es with
  | nil => exact (Nat.zero_mul _).symm
  | cons e es ih =>
    obtain ⟨first, others⟩ := List.forall_mem_cons.mp sized
    have rest : total (e :: es) = e.size.toNat + total es := List.sum_cons
    rw [rest, first, ih others, List.length_cons, Nat.succ_mul, Nat.add_comm]

/-- **Making room for one more is dropping all but as many as fit beside it.** -/
theorem evictTo_eq_drop {es : List (Kept K V)} (sized : ∀ e ∈ es, e.size = size)
    (positive : 1 ≤ size.toNat) {budget : Nat} (fits : size.toNat ≤ budget) :
    (evictTo (budget - size.toNat) es).2 = es.drop (es.length + 1 - budget / size.toNat) := by
  induction es with
  | nil => exact List.drop_nil.symm
  | cons e es ih =>
    have exceeds : budget - size.toNat < total (e :: es)
        ↔ budget / size.toNat < es.length + 1 + 1 := by
      rw [total_of_sized sized, List.length_cons, Nat.div_lt_iff_lt_mul positive]
      have one_more : (es.length + 1 + 1) * size.toNat = (es.length + 1) * size.toNat + size.toNat :=
        Nat.succ_mul _ _
      omega
    rw [evictTo, List.length_cons]
    by_cases more : budget / size.toNat < es.length + 1 + 1
    · rw [if_pos (exceeds.mpr more), ih (List.forall_mem_cons.mp sized).2,
        Nat.succ_sub (Nat.le_of_lt_succ more), List.drop_succ_cons]
    · rw [if_neg (mt exceeds.mp more), Nat.sub_eq_zero_of_le (Nat.not_lt.mp more), List.drop_zero]

end Kept

/-! ## One cache within another -/

namespace ListCache

variable {K V : Type} [BEq K] {measure : K → V → Count} {size : Count} {c d : ListCache K V}

/-- How many entries of a size fit the budget. -/
def room (size : Count) (c : ListCache K V) : Nat := c.budget.toNat / size.toNat

/-- Keys occur once. -/
def Apart (c : ListCache K V) : Prop := c.entries.Pairwise fun a b => (a.key == b.key) = false

/-- A cache is part of another one whose entries are all of one size. -/
structure Within (size : Count) (c d : ListCache K V) : Prop where
  sublist : c.entries.Sublist d.entries
  sized : ∀ e ∈ d.entries, e.size = size
  /-- The entries that only the larger cache has are no more than those for which
  only the larger cache has room. -/
  spare : d.entries.length + c.room size ≤ c.entries.length + d.room size

theorem Within.without (w : Within size c d) (key : K) :
    Within size (c.without key) (d.without key) where
  sublist := w.sublist.filter _
  sized e he := w.sized e (List.mem_of_mem_filter he)
  spare := by
    have fewer := w.sublist.countP_le (p := fun e => !!(e.key == key))
    have left := c.entries.length_eq_countP_add_countP fun e => !(e.key == key)
    have right := d.entries.length_eq_countP_add_countP fun e => !(e.key == key)
    have spare := w.spare
    simp only [ListCache.without, room, ← List.countP_eq_length_filter] at spare ⊢
    simp only [Bool.not_eq_true, Bool.decide_eq_false] at left right
    omega

theorem Within.add (w : Within size c d) {e : Kept K V} (sized : e.size = size) :
    Within size (c.add e) (d.add e) where
  sublist := w.sublist.append (.refl _)
  sized e' he' := by
    rcases List.mem_append.mp he' with before | new
    · exact w.sized e' before
    · rw [List.mem_singleton.mp new, sized]
  spare := by
    have spare := w.spare
    simp only [ListCache.add, List.length_append, List.length_singleton, room] at spare ⊢
    omega

/-- **Both caches make room**: the larger one drops no more than the smaller one, and
nothing before it is full. -/
theorem Within.drop (w : Within size c d) :
    Within size
      { c with entries := c.entries.drop (c.entries.length + 1 - c.room size) }
      { d with entries := d.entries.drop (d.entries.length + 1 - d.room size) } where
  sublist := by
    have spare := w.spare
    refine List.Sublist.trans ?_ (w.sublist.drop _)
    exact List.drop_sublist_drop_left _ (by omega)
  sized e he := w.sized e (List.mem_of_mem_drop he)
  spare := by
    have spare := w.spare
    have fewer := w.sublist.length_le
    simp only [List.length_drop, room] at spare ⊢
    omega

theorem put_drops (sized : ∀ e ∈ c.entries, e.size = size) (positive : 1 ≤ size)
    (fits : size ≤ c.budget) {key : K} {value : V} (measured : measure key value = size) :
    (c.put measure key value).2
      = add { c.without key with
          entries := (c.without key).entries.drop
            ((c.without key).entries.length + 1 - (c.without key).room size) }
        ⟨key, value, size⟩ := by
  have large : ¬ c.budget < size := UInt64.not_lt.mpr fits
  rw [UInt64.le_iff_toNat_le] at positive fits
  have others : ∀ e ∈ (c.without key).entries, e.size = size :=
    fun e he => sized e (List.mem_of_mem_filter he)
  simp only [put, measured, if_neg large, trim, Kept.evictTo_eq_drop others positive fits]
  rfl

theorem Within.put (w : Within size c d) (positive : 1 ≤ size) (fits : size ≤ c.budget)
    (le : c.budget ≤ d.budget) {key : K} {value : V} (measured : measure key value = size) :
    Within size (c.put measure key value).2 (d.put measure key value).2 := by
  have small : ∀ e ∈ c.entries, e.size = size := fun e he => w.sized e (w.sublist.subset he)
  rw [put_drops small positive fits measured,
    put_drops w.sized positive (UInt64.le_trans fits le) measured]
  exact (w.without key).drop.add rfl

/-! ## Look-ups -/

variable [EquivBEq K]

theorem Apart.find?_of_mem (apart : d.Apart) {e : Kept K V} (he : e ∈ d.entries) {key : K}
    (same : (e.key == key) = true) : d.entries.find? (·.key == key) = some e := by
  unfold Apart at apart
  generalize d.entries = es at apart he
  induction es with
  | nil => exact absurd he List.not_mem_nil
  | cons first es ih =>
    obtain ⟨others, apart⟩ := List.pairwise_cons.mp apart
    rcases List.mem_cons.mp he with rfl | he
    · exact List.find?_cons_of_pos same
    · have differs : ¬ (first.key == key) = true := by
        intro also
        have apart := others e he
        rw [BEq.trans also (BEq.symm same)] at apart
        cases apart
      exact (List.find?_cons_of_neg (by simpa using differs)).trans (ih apart he)

/-- **What the smaller cache finds, the larger one finds.** -/
theorem Within.find? (w : Within size c d) (apart : d.Apart) {key : K} {e : Kept K V}
    (found : c.entries.find? (·.key == key) = some e) :
    d.entries.find? (·.key == key) = some e :=
  apart.find?_of_mem (w.sublist.subset (List.mem_of_find?_eq_some found))
    (by simpa using List.find?_some found)

theorem Within.get (w : Within size c d) (apart : d.Apart) (key : K) :
    Within size (c.get key).2 (d.get key).2 := by
  have both := w.without key
  cases small : c.entries.find? (·.key == key) with
  | some e =>
    have large := w.find? apart small
    simp only [ListCache.get, small, large]
    exact both.add (w.sized e (List.mem_of_find?_eq_some large))
  | none =>
    have missing : c.without key = c := by
      refine congrArg (ListCache.mk · c.budget) (List.filter_eq_self.mpr fun e he => ?_)
      simpa using List.find?_eq_none.mp small e he
    cases large : d.entries.find? (·.key == key) with
    | none =>
      simp only [ListCache.get, small, large]
      exact w
    | some e =>
      simp only [ListCache.get, small, large]
      rw [missing] at both
      have length : (d.without key).entries.length + 1 ≤ d.entries.length := by
        refine List.length_filter_lt_length_iff_exists.mpr ⟨e, List.mem_of_find?_eq_some large, ?_⟩
        simpa using List.find?_some large
      refine ⟨?_, ?_, ?_⟩
      · exact both.sublist.trans (List.sublist_append_left _ _)
      · intro e' he'
        rcases List.mem_append.mp he' with before | moved
        · exact both.sized e' before
        · rw [List.mem_singleton.mp moved]
          exact w.sized e (List.mem_of_find?_eq_some large)
      · have spare := w.spare
        simp only [ListCache.add, List.length_append, List.length_singleton, room] at spare length ⊢
        exact Nat.le_trans (Nat.add_le_add_right length _) spare

/-! ## Every use -/

theorem perform_budget {use : CacheCall K V} (uniform : use.Uniform measure size) :
    (c.perform measure use).2.2.budget = c.budget := by
  cases use with
  | put | peek | contains | remove => rfl
  | get key =>
    show (c.get key).2.budget = c.budget
    rw [ListCache.get]
    split <;> rfl
  | trimToShare | trimTo | relieve | clear | setBudget => exact uniform.elim

/-- **A use keeps one cache within the other.** -/
theorem Within.perform (w : Within size c d) (apart : d.Apart) (positive : 1 ≤ size)
    (fits : size ≤ c.budget) (le : c.budget ≤ d.budget) {use : CacheCall K V}
    (uniform : use.Uniform measure size) :
    Within size (c.perform measure use).2.2 (d.perform measure use).2.2 := by
  cases use with
  | put key value => exact w.put positive fits le uniform
  | get key => exact w.get apart key
  | peek | contains => exact w
  | remove key => exact w.without key
  | trimToShare | trimTo | relieve | clear | setBudget => exact uniform.elim

end ListCache

/-! ## Runs -/

namespace Store

variable {K V : Type} [BEq K] [Hashable K] [EquivBEq K] [LawfulHashable K]
variable {measure : K → V → Count} {size : Count} {s t : Store K V}

/-- A store of the smaller budget and one of the larger, after the same uses. -/
structure Nested (measure : K → V → Count) (size : Count) (s t : Store K V) : Prop where
  small : s.Consistent measure
  large : t.Consistent measure
  within : s.asList.Within size t.asList
  fits : size ≤ s.budget
  le : s.budget ≤ t.budget

theorem Nested.apart (n : Nested measure size s t) : t.asList.Apart := n.large.kept_apart

theorem nested_empty {small large : Count} (fits : size ≤ small) (le : small ≤ large) :
    Nested measure size (empty small : Store K V) (empty large) where
  small := empty_consistent small
  large := empty_consistent large
  within := by
    refine ⟨.slnil, fun _ he => absurd he List.not_mem_nil, ?_⟩
    exact Nat.add_le_add_left (Nat.div_le_div_right (UInt64.le_iff_toNat_le.mp le)) _
  fits := fits
  le := le

theorem Nested.perform (n : Nested measure size s t) (positive : 1 ≤ size) {use : CacheCall K V}
    (uniform : use.Uniform measure size) :
    Nested measure size (s.perform measure use).2.2 (t.perform measure use).2.2 := by
  have left := congrArg (·.2.2) (perform_asList n.small use)
  have right := congrArg (·.2.2) (perform_asList n.large use)
  have budget : (s.perform measure use).2.2.budget = s.budget :=
    (congrArg ListCache.budget left).symm.trans (ListCache.perform_budget uniform)
  have budget' : (t.perform measure use).2.2.budget = t.budget :=
    (congrArg ListCache.budget right).symm.trans (ListCache.perform_budget uniform)
  have within := n.within.perform n.apart positive n.fits n.le uniform
  dsimp only at left right
  rw [left, right] at within
  refine ⟨perform_consistent n.small use, perform_consistent n.large use, within, ?_, ?_⟩
  · rw [budget]
    exact n.fits
  · rw [budget, budget']
    exact n.le

theorem Nested.performAll (n : Nested measure size s t) (positive : 1 ≤ size)
    {uses : List (CacheCall K V)} (uniform : ∀ use ∈ uses, use.Uniform measure size) :
    Nested measure size (s.performAll measure uses) (t.performAll measure uses) := by
  induction uses generalizing s t with
  | nil => exact n
  | cons use uses ih =>
    obtain ⟨first, rest⟩ := List.forall_mem_cons.mp uniform
    exact ih (n.perform positive first) rest

theorem Nested.find? (n : Nested measure size s t) {key : K} {value : V}
    (found : s.find? key = some value) : t.find? key = some value := by
  rw [n.small.find?_kept, Option.map_eq_some_iff] at found
  obtain ⟨e, found, rfl⟩ := found
  rw [n.large.find?_kept, show t.kept.find? _ = some e from n.within.find? n.apart found]
  rfl

theorem Nested.keysOldestFirst (n : Nested measure size s t) :
    s.keysOldestFirst.Sublist t.keysOldestFirst := by
  rw [n.small.keysOldestFirst_kept, n.large.keysOldestFirst_kept]
  exact n.within.sublist.map _

theorem Nested.answer (n : Nested measure size s t) {use : CacheCall K V}
    (uniform : use.Uniform measure size) {value : V}
    (given : (s.perform measure use).1 = .value (some value)) :
    (t.perform measure use).1 = .value (some value) := by
  cases use with
  | get key =>
    have found : s.find? key = some value := (get_answer s key).symm.trans (CacheAnswer.value.inj given)
    exact congrArg CacheAnswer.value ((get_answer t key).trans (n.find? found))
  | peek key => exact congrArg CacheAnswer.value (n.find? (CacheAnswer.value.inj given))
  | remove key =>
    have found : s.find? key = some value :=
      (extract_answer s key).symm.trans (CacheAnswer.value.inj given)
    exact congrArg CacheAnswer.value ((extract_answer t key).trans (n.find? found))
  | put | contains => cases given
  | trimToShare | trimTo | relieve | clear | setBudget => exact uniform.elim

end Store

variable {K V : Type} [BEq K] [Hashable K] [EquivBEq K] [LawfulHashable K]

/-- **A larger budget loses nothing.** Let two caches start empty, of which one has a
budget as large as the other's or larger, and let them be used alike: by putting
entries of one size that fits, by looking up, peeking, asking and removing, in any
order. After every such run, and so after every step of it, the keys of the smaller
cache are among those of the larger one, in the same order of use and with the same
values; and whatever gives a value in the smaller cache gives it in the larger one. -/
theorem larger_budget_keeps (measure : K → V → Count) (size small large : Count)
    (positive : 1 ≤ size) (fits : size ≤ small) (le : small ≤ large)
    (uses : List (CacheCall K V)) (uniform : ∀ use ∈ uses, use.Uniform measure size) :
    let s := (Store.empty small).performAll measure uses
    let t := (Store.empty large).performAll measure uses
    s.keysOldestFirst.Sublist t.keysOldestFirst ∧
    (∀ key, s.contains key = true → t.contains key = true) ∧
    (∀ key value, s.find? key = some value → t.find? key = some value) ∧
    ∀ use : CacheCall K V, use.Uniform measure size → ∀ value,
      (s.perform measure use).1 = .value (some value) →
      (t.perform measure use).1 = .value (some value) := by
  intro s t
  have n : Store.Nested measure size s t := (Store.nested_empty fits le).performAll positive uniform
  refine ⟨n.keysOldestFirst, ?_, fun key value => n.find?, fun use plain value => n.answer plain⟩
  intro key present
  rw [Store.contains_answer] at present ⊢
  obtain ⟨value, found⟩ := Option.isSome_iff_exists.mp present
  rw [n.find? found]
  rfl

/-- **Not vacuous**: in budgets of two and of three entries, a look-up finds an entry in
the larger cache only, so that the orders of use part; still two of its three keys are
those of the smaller cache, in the same order. -/
theorem larger_budget_keeps_two :
    let uses : List (CacheCall Nat Nat) :=
      [.put 1 10, .put 2 20, .put 3 30, .get 1, .put 4 40, .remove 4, .put 5 50]
    let s := (Store.empty 8).performAll (fun _ _ => 4) uses
    let t := (Store.empty 12).performAll (fun _ _ => 4) uses
    s.keysOldestFirst = [3, 5] ∧ t.keysOldestFirst = [3, 1, 5] ∧
    s.keysOldestFirst.Sublist t.keysOldestFirst ∧
    (s.perform (fun _ _ => 4) (.get 3)).1 = .value (some 30) ∧
    (t.perform (fun _ _ => 4) (.get 3)).1 = .value (some 30) := by
  have uniform : ∀ use ∈ ([.put 1 10, .put 2 20, .put 3 30, .get 1, .put 4 40, .remove 4,
      .put 5 50] : List (CacheCall Nat Nat)), use.Uniform (fun _ _ => 4) 4 := by
    simp [CacheCall.Uniform]
  obtain ⟨order, _, _, answers⟩ := larger_budget_keeps (fun _ _ => 4) 4 8 12 (by decide) (by decide)
    (by decide) _ uniform
  exact ⟨by cbv, by cbv, order, by cbv, answers (.get 3) trivial 30 (by cbv)⟩

end ReadAhead
