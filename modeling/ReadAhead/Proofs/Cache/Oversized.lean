import Mathlib.Data.List.DropRight
import ReadAhead.Proofs.Cache.Budget
import ReadAhead.Proofs.Cache.Eviction

/-!
  Oversized — what an entry larger than the budget leaves beside it

  For an entry that exceeds the budget, room is made down to nothing. That is a
  size and not a number of entries: eviction stops as soon as the rest takes up
  nothing, and entries of no size take up nothing. So those of them that were used
  after all others are not evicted, and the large entry is not alone.

  What is proved:
    1. `cut_zero` — cut at the target zero, the rest is the entries of no size at the
       end of the order of use.
    2. `put_oversized_kept` — so these stay, and all before them are evicted.
    3. `oversized_alone_iff` — in every session the large entry is alone if and only
       if the entry used last before it is of some size; then all others were evicted,
       the one used longest ago first.
    4. `oversized_alone_iff_two` (anti-vacuity) — two entries, and both are evicted.
    5. `oversized_not_alone` — an entry of no size stays beside one of twice the
       budget.
-/

namespace ReadAhead

open Std

namespace Kept

variable {K V : Type}

/-- An entry of no size. -/
def weightless (e : Kept K V) : Bool := e.size == 0

theorem weightless_iff (e : Kept K V) : e.weightless = true ↔ e.size.toNat = 0 := by
  rw [weightless, beq_iff_eq, ← UInt64.toNat_inj, UInt64.toNat_zero]

theorem total_eq_zero {es : List (Kept K V)} (all : ∀ e ∈ es, e.weightless = true) :
    total es = 0 := by
  rw [total, List.sum_eq_zero_iff_forall_eq_nat]
  intro n hn
  obtain ⟨e, he, rfl⟩ := List.mem_map.mp hn
  exact e.weightless_iff.mp (all e he)

/-- **Cut at zero, the rest is the entries of no size at the end.** -/
theorem cut_zero (es : List (Kept K V)) :
    Cut 0 es (es.rdropWhile weightless) (es.rtakeWhile weightless) where
  whole := List.rdropWhile_append_rtakeWhile
  reached := Nat.le_of_eq (total_eq_zero fun _ he => List.mem_rtakeWhile_imp he)
  shortest := by
    intro n less
    have some_left : es.rdropWhile weightless ≠ [] := List.ne_nil_of_length_pos (by omega)
    have heavy := List.rdropWhile_last_not weightless es some_left
    -- the last entry that goes is of some size, and it is still there after `n` have gone
    have there : (es.rdropWhile weightless).getLast some_left ∈ es.drop n := by
      have rest : (es.rdropWhile weightless).drop n ≠ [] := by
        rwa [ne_eq, List.drop_eq_nil_iff, Nat.not_le]
      have parts : es.drop n = (es.rdropWhile weightless).drop n ++ es.rtakeWhile weightless := by
        rw [← List.drop_append_of_le_length (Nat.le_of_lt less), List.rdropWhile_append_rtakeWhile]
      rw [parts, ← List.getLast_drop rest]
      exact List.mem_append_left _ (List.getLast_mem rest)
    rw [weightless_iff] at heavy
    exact Nat.lt_of_lt_of_le (Nat.pos_of_ne_zero heavy) (le_total there)

theorem rtakeWhile_eq_nil {es : List (Kept K V)} :
    es.rtakeWhile weightless = [] ↔ ∀ e ∈ es.getLast?, e.size ≠ 0 := by
  rw [List.rtakeWhile_eq_nil_iff]
  cases es using List.reverseRecOn with
  | nil => simp
  | append_singleton es e => simp [weightless]

end Kept

namespace Store

set_option linter.unusedSectionVars false

variable {K V : Type} [BEq K] [Hashable K] [EquivBEq K] [LawfulHashable K]
variable {measure : K → V → Count} {s : Store K V}

/-- **For an entry that does not fit, all go up to the last one of some size.** -/
theorem put_oversized_kept (h : s.Consistent measure) (key : K) (value : V)
    (large : s.budget < measure key value) :
    let others := s.kept.filter fun e => !(e.key == key)
    (s.put measure key value).1 = ((s.find? key).map (⟨key, ·, .replaced⟩)).toList
        ++ (others.rdropWhile Kept.weightless).map (Kept.leave .capacity) ∧
      (s.put measure key value).2.kept
        = others.rtakeWhile Kept.weightless ++ [⟨key, value, measure key value⟩] := by
  intro others
  obtain ⟨gone, stays⟩ := put_kept h key value
  rw [toNat_roomFor, if_pos large, (Kept.cut_zero others).eq_evictTo] at gone stays
  exact ⟨gone, stays⟩

end Store

variable {K V : Type} [BEq K] [Hashable K] [EquivBEq K] [LawfulHashable K]

/-- **An entry that exceeds the budget is alone if the one before it is of some size.**
Whatever a program and the hook do with a cache that starts empty, after any number of
steps: a put that exceeds the budget keeps its value, and the size of the cache is its
size. Of the entries of other keys, each of which is there once, it evicts those up to
the last one of some size, the one used longest ago first; those after it stay. So
its key is the only one left if and only if the entry used last is of some
size, and then every other entry is evicted. -/
theorem oversized_alone_iff (measure : K → V → Count) (hook : ReleaseHook K V)
    (budget : Count) (p : CacheProgram K V) (steps : Nat) :
    let s := ((Session.start (.empty budget) p).advance measure hook steps).store
    ∀ key value, s.budget < measure key value →
      let others := s.kept.filter fun e => !(e.key == key)
      let old := ((s.find? key).map (⟨key, ·, .replaced⟩)).toList
      let outcome := s.perform measure (.put key value)
      others.Pairwise (fun a b => (a.key == b.key) = false) ∧
      outcome.2.2.find? key = some value ∧
      outcome.2.2.size = measure key value ∧
      outcome.2.1 = old ++ (others.rdropWhile Kept.weightless).map (Kept.leave .capacity) ∧
      outcome.2.2.keysOldestFirst = (others.rtakeWhile Kept.weightless).map (·.key) ++ [key] ∧
      (outcome.2.2.keysOldestFirst = [key] ↔ ∀ e ∈ others.getLast?, e.size ≠ 0) ∧
      ((∀ e ∈ others.getLast?, e.size ≠ 0) →
        outcome.2.1 = old ++ others.map (Kept.leave .capacity)) := by
  intro s key value large others old outcome
  have consistent : s.Consistent measure :=
    Session.store_consistent measure hook budget p steps
  obtain ⟨gone, stays⟩ := Store.put_oversized_kept consistent key value large
  obtain ⟨⟨_, resident⟩, _⟩ := Store.put_frame measure s key value
  obtain ⟨entry, exceeded⟩ := Store.put_exceeded consistent key value large
  have keys : outcome.2.2.keysOldestFirst
      = (others.rtakeWhile Kept.weightless).map (·.key) ++ [key] := by
    rw [(Store.perform_consistent consistent (.put key value)).keysOldestFirst_kept]
    exact (congrArg _ stays).trans List.map_append
  refine ⟨consistent.kept_apart.filter _, ?_, ?_, gone, keys, ?_, ?_⟩
  · show (s.put measure key value).2.find? key = some value
    rw [Store.find?, resident]
    rfl
  · have same := exceeded.resident
    rw [resident, Option.some.injEq] at same
    exact exceeded.whole.trans (by rw [← same])
  · rw [keys, List.append_left_eq_self, List.map_eq_nil_iff]
    exact Kept.rtakeWhile_eq_nil
  · intro sized
    have whole := (Kept.cut_zero others).whole
    rw [Kept.rtakeWhile_eq_nil.mpr sized, List.append_nil] at whole
    exact gone.trans (by rw [whole])

/-- **Not vacuous**: the entry used last is of three, and both entries are evicted for
one of twice the budget, which is alone then. -/
theorem oversized_alone_iff_two :
    let s := ((Session.start (.empty 10) (.ofCalls [.put 1 0, .put 2 3])).advance
      (fun (_ : Nat) v => v) .quiet 5).store
    (s.perform (fun (_ : Nat) v => v) (.put 3 20)).2.2.keysOldestFirst = [3] ∧
    (s.perform (fun (_ : Nat) v => v) (.put 3 20)).2.1
      = (s.kept.filter fun e => !(e.key == 3)).map (Kept.leave .capacity) ∧
    (s.perform (fun (_ : Nat) v => v) (.put 3 20)).2.1
      = [⟨1, 0, .capacity⟩, ⟨2, 3, .capacity⟩] := by
  have facts : let s := ((Session.start (.empty 10) (.ofCalls [.put 1 0, .put 2 3])).advance
        (fun (_ : Nat) v => v) .quiet 5).store
      s.budget = 10 ∧ s.find? 3 = none ∧
      (s.kept.filter fun e => !(e.key == 3)).getLast? = some ⟨2, 3, 3⟩ :=
    ⟨by cbv, by cbv, by cbv⟩
  obtain ⟨budget, old, others⟩ := facts
  obtain ⟨_, _, _, _, _, alone, all⟩ := oversized_alone_iff (fun (_ : Nat) v => v) .quiet 10
    (.ofCalls [.put 1 0, .put 2 3]) 5 3 20 (by rw [budget]; decide)
  rw [others] at alone all
  rw [old] at all
  have sized : ∀ e ∈ some (⟨2, 3, 3⟩ : Kept Nat Count), e.size ≠ 0 := by simp
  exact ⟨alone.mpr sized, all sized, by cbv⟩

/-- **The large entry is not alone** beside one of no size: nothing is evicted for it. -/
theorem oversized_not_alone :
    let s := ((Session.start (.empty 10) (.ofCalls [.put 1 0])).advance
      (fun (_ : Nat) v => v) .quiet 3).store
    s.budget < 20 ∧
    (s.perform (fun (_ : Nat) v => v) (.put 2 20)).2.2.keysOldestFirst = [1, 2] ∧
    (s.perform (fun (_ : Nat) v => v) (.put 2 20)).2.1 = [] :=
  ⟨by cbv, by cbv, by cbv⟩

end ReadAhead
