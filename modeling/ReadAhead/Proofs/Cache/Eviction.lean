import Mathlib.Data.List.Permutation
import ReadAhead.Proofs.Cache.Recency
import ReadAhead.Proofs.Cache.Arithmetic

/-!
  Eviction — the shortest prefix that brings the size down, and nothing more

  Whatever evicts does it in one way: entries go off the front of the order of
  use until the sizes of the rest sum up to no more than a target. `Kept.Cut`
  says what that comes to without saying how it is done: the entries are cut in
  two, the rest is down to the target, and it is not at any earlier cut.

  What is proved:
    1. `Cut.unique` — there is one such cut; `evictTo_cut` — evicting finds it.
    2. `Cut.nothing`, `Cut.trans` — none is needed if the entries are down to the
       target already, and two cuts after each other are one to the lower target.
    3. `perform_trims` — the uses that trim to a size evict to it, whatever else
       they do.
    4. `evicts_shortest_prefix` — so in every session a put that fits and every
       trimming take the shortest prefix, and two trimmings come to one.
    5. `evicts_shortest_prefix_two` (anti-vacuity) — of three entries, two go.
-/

namespace ReadAhead

open Std

/-! ## Cuts -/

namespace Kept

variable {K V : Type}

theorem total_cons (e : Kept K V) (es : List (Kept K V)) :
    total (e :: es) = e.size.toNat + total es := by
  rw [total, List.map_cons, List.sum_cons, total]

theorem total_append (es fs : List (Kept K V)) : total (es ++ fs) = total es + total fs := by
  rw [total, List.map_append, List.sum_append, total, total]

theorem le_total {e : Kept K V} {es : List (Kept K V)} (he : e ∈ es) :
    e.size.toNat ≤ total es := by
  obtain ⟨before, after, rfl⟩ := List.append_of_mem he
  rw [total_append, total_cons]
  omega

/-- Entries in two parts: those that have to go until the rest is down to a
target, and the rest. -/
structure Cut (target : Nat) (es evicted left : List (Kept K V)) : Prop where
  whole : evicted ++ left = es
  reached : total left ≤ target
  /-- With any fewer entries gone, too much is left. -/
  shortest : ∀ n < evicted.length, target < total (es.drop n)

namespace Cut

variable {target : Nat} {es evicted left evicted' left' : List (Kept K V)}

theorem length_le (c : Cut target es evicted left) (c' : Cut target es evicted' left') :
    evicted.length ≤ evicted'.length := by
  by_contra before
  have more := c.shortest evicted'.length (Nat.not_le.mp before)
  rw [← c'.whole, List.drop_left] at more
  exact Nat.not_le.mpr more c'.reached

/-- **There is one cut only.** -/
theorem unique (c : Cut target es evicted left) (c' : Cut target es evicted' left') :
    evicted = evicted' ∧ left = left' :=
  List.append_inj (c.whole.trans c'.whole.symm)
    (Nat.le_antisymm (c.length_le c') (c'.length_le c))

theorem nothing (within : total es ≤ target) : Cut target es [] es where
  whole := rfl
  reached := within
  shortest := by simp

/-- **A cut of what a cut has left is a cut to the lower of the targets.** -/
theorem trans {a b : Nat} {rest last : List (Kept K V)} (c : Cut a es evicted rest)
    (c' : Cut b rest evicted' last) : Cut (min a b) es (evicted ++ evicted') last where
  whole := by rw [List.append_assoc, c'.whole, c.whole]
  reached := by
    have shorter : total rest = total evicted' + total last := by rw [← c'.whole, total_append]
    have first := c.reached
    have second := c'.reached
    omega
  shortest := by
    intro n less
    rw [List.length_append] at less
    by_cases early : n < evicted.length
    · exact Nat.lt_of_le_of_lt (Nat.min_le_left _ _) (c.shortest n early)
    · have more := c'.shortest (n - evicted.length) (by omega)
      rw [← c.whole, List.drop_append, List.drop_of_length_le (Nat.not_lt.mp early),
        List.nil_append]
      exact Nat.lt_of_le_of_lt (Nat.min_le_right _ _) more

theorem evicts (c : Cut target es evicted left) {e : Kept K V} (he : e ∈ es)
    (large : target < e.size.toNat) : e ∈ evicted := by
  rw [← c.whole, List.mem_append] at he
  refine he.resolve_right fun stays => ?_
  have size := le_total stays
  have reached := c.reached
  omega

end Cut

/-- **Evicting finds the cut.** -/
theorem evictTo_cut (target : Nat) (es : List (Kept K V)) :
    Cut target es (evictTo target es).1 (evictTo target es).2 := by
  induction es with
  | nil => exact .nothing (Nat.zero_le _)
  | cons e es ih =>
    rw [evictTo]
    split
    · next more =>
      refine ⟨congrArg (e :: ·) ih.whole, ih.reached, ?_⟩
      intro n less
      cases n with
      | zero => exact more
      | succ n => exact ih.shortest n (Nat.lt_of_succ_lt_succ less)
    · next within => exact .nothing (Nat.not_lt.mp within)

theorem Cut.eq_evictTo {target : Nat} {es evicted left : List (Kept K V)}
    (c : Cut target es evicted left) : evictTo target es = (evicted, left) := by
  obtain ⟨gone, stays⟩ := (evictTo_cut target es).unique c
  rw [← gone, ← stays]

end Kept

/-! ## Trimming -/

/-- The size to which a share trims a budget; none if it is infinite or no number. -/
def Store.shareTarget? (budget : Count) (share : Float) : Option Count :=
  if share.isFinite then some (shareOf budget share) else none

/-- The size to which a use trims a cache of a budget. -/
def CacheCall.trimTarget? {K V : Type} (budget : Count) : CacheCall K V → Option Count
  | .trimToShare share => Store.shareTarget? budget share
  | .trimTo target => some target
  | .relieve pressure => Store.shareTarget? budget pressure.retainedShare
  | .setBudget budget => some budget
  | _ => none

namespace Store

set_option linter.unusedSectionVars false

variable {K V : Type} [BEq K] [Hashable K] [EquivBEq K] [LawfulHashable K]
variable {measure : K → V → Count} {s : Store K V} {use : CacheCall K V} {target : Count}

theorem trimToShare_trims (s : Store K V) {share : Float}
    (trims : shareTarget? s.budget share = some target) :
    s.trimToShare share = s.shrink target .trimmed := by
  rw [shareTarget?, Option.ite_none_right_eq_some, Option.some.injEq] at trims
  rw [trimToShare, if_pos trims.1, trims.2, trimTo]

/-- **A use that trims to a size evicts to it**, with whatever budget. -/
theorem perform_trims (measure : K → V → Count) (trims : use.trimTarget? s.budget = some target) :
    ∃ budget, (s.perform measure use).2 = { s with budget := budget }.shrink target .trimmed := by
  cases use with
  | trimToShare share => exact ⟨s.budget, trimToShare_trims s trims⟩
  | relieve pressure => exact ⟨s.budget, trimToShare_trims s trims⟩
  | trimTo size => exact ⟨s.budget, congrArg (s.shrink · .trimmed) (Option.some.inj trims)⟩
  | setBudget budget =>
    refine ⟨budget, ?_⟩
    rw [← Option.some.inj trims]
    rfl
  | put | get | peek | contains | remove | clear => cases trims

theorem perform_evictTo (h : s.Consistent measure) (trims : use.trimTarget? s.budget = some target) :
    (s.perform measure use).2.1
        = (Kept.evictTo target.toNat s.kept).1.map (Kept.leave .trimmed) ∧
      (s.perform measure use).2.2.kept = (Kept.evictTo target.toNat s.kept).2 := by
  obtain ⟨budget, same⟩ := perform_trims measure trims
  have changed : ({ s with budget := budget } : Store K V).Consistent measure :=
    h.congr .rfl rfl rfl rfl
  rw [same]
  exact shrink_kept changed target .trimmed

theorem perform_cut (h : s.Consistent measure) (trims : use.trimTarget? s.budget = some target) :
    ∃ evicted left, Kept.Cut target.toNat s.kept evicted left ∧
      (s.perform measure use).2.1 = evicted.map (Kept.leave .trimmed) ∧
      (s.perform measure use).2.2.kept = left := by
  obtain ⟨gone, stays⟩ := perform_evictTo h trims
  exact ⟨_, _, Kept.evictTo_cut target.toNat s.kept, gone, stays⟩

theorem perform_within (h : s.Consistent measure) (trims : use.trimTarget? s.budget = some target)
    (within : s.size ≤ target) :
    (s.perform measure use).2.1 = [] ∧ (s.perform measure use).2.2.kept = s.kept := by
  have sum : Kept.total s.kept ≤ target.toNat := by
    rw [h.total_kept.1]
    exact UInt64.le_iff_toNat_le.mp within
  obtain ⟨gone, stays⟩ := perform_evictTo h trims
  rw [(Kept.Cut.nothing sum).eq_evictTo] at gone stays
  exact ⟨gone, stays⟩

/-- **Trimming twice is trimming once**, to the lower of the sizes. -/
theorem perform_twice (h : s.Consistent measure) (trims : use.trimTarget? s.budget = some target)
    {next : CacheCall K V} {target' : Count}
    (trims' : next.trimTarget? (s.perform measure use).2.2.budget = some target') :
    let t := (s.perform measure use).2.2
    let once := s.perform measure (.trimTo (min target target'))
    (s.perform measure use).2.1 ++ (t.perform measure next).2.1 = once.2.1 ∧
      (t.perform measure next).2.2.kept = once.2.2.kept := by
  intro t once
  have ht : t.Consistent measure := perform_consistent h use
  obtain ⟨evicted, left, first, gone, stays⟩ := perform_cut h trims
  obtain ⟨evicted', left', second, gone', stays'⟩ := perform_cut ht trims'
  have lower : (CacheCall.trimTo (min target target') : CacheCall K V).trimTarget? s.budget
      = some (min target target') := rfl
  obtain ⟨all, rest⟩ := perform_evictTo h lower
  rw [show t.kept = left from stays] at second
  rw [UInt64.toNat_min, (first.trans second).eq_evictTo] at all rest
  rw [gone, gone', all, stays', rest, List.map_append]
  exact ⟨rfl, rfl⟩

/-- **A put that fits takes off the shortest prefix** of the other entries. -/
theorem put_cut (h : s.Consistent measure) (key : K) (value : V)
    (fits : measure key value ≤ s.budget) :
    ∃ evicted left,
      Kept.Cut (s.budget.toNat - (measure key value).toNat)
        (s.kept.filter fun e => !(e.key == key)) evicted left ∧
      (s.put measure key value).1
        = ((s.find? key).map (⟨key, ·, .replaced⟩)).toList ++ evicted.map (Kept.leave .capacity) ∧
      (s.put measure key value).2.kept = left ++ [⟨key, value, measure key value⟩] := by
  obtain ⟨gone, stays⟩ := put_kept h key value
  rw [toNat_roomFor, if_neg (UInt64.not_lt.mpr fits)] at gone stays
  exact ⟨_, _, Kept.evictTo_cut _ _, gone, stays⟩

end Store

/-! ## Sessions -/

variable {K V : Type} [BEq K] [Hashable K] [EquivBEq K] [LawfulHashable K]

/-- **Eviction takes the shortest prefix of the order of use, and nothing more.**
Whatever a program and the hook do with a cache that starts empty, after any number of
steps, with the entries in the order of use: a put that fits cuts the entries of the other
keys where they leave room for it, a use that trims cuts all entries at its target, and
what is cut off leaves in that order, while the rest stays as it is and in order; so none
leaves while an older one stays. Nothing leaves if the target is kept already. Two
trimmings in a row release the same, in the same order, and leave the same as one down
to the lower target. -/
theorem evicts_shortest_prefix (measure : K → V → Count) (hook : ReleaseHook K V)
    (budget : Count) (p : CacheProgram K V) (steps : Nat) :
    let s := ((Session.start (.empty budget) p).advance measure hook steps).store
    (s.keysOldestFirst = s.kept.map (·.key) ∧ Kept.total s.kept = s.size.toNat ∧
      ∀ key, s.find? key = (s.kept.find? (·.key == key)).map (·.value)) ∧
    (∀ key value, measure key value ≤ s.budget →
      let size := measure key value
      let others := s.kept.filter fun e => !(e.key == key)
      let outcome := s.perform measure (.put key value)
      ∃ evicted left, Kept.Cut (s.budget.toNat - size.toNat) others evicted left ∧
        outcome.2.1 = ((s.find? key).map (⟨key, ·, .replaced⟩)).toList
          ++ evicted.map (Kept.leave .capacity) ∧
        outcome.2.2.kept = left ++ [⟨key, value, size⟩] ∧
        (Kept.total others + size.toNat ≤ s.budget.toNat → evicted = [] ∧ left = others)) ∧
    (∀ use target, use.trimTarget? s.budget = some target →
      let outcome := s.perform measure use
      (∃ evicted left, Kept.Cut target.toNat s.kept evicted left ∧
        outcome.2.1 = evicted.map (Kept.leave .trimmed) ∧ outcome.2.2.kept = left) ∧
      (s.size ≤ target → outcome.2.1 = [] ∧ outcome.2.2.kept = s.kept) ∧
      (∀ next target', next.trimTarget? outcome.2.2.budget = some target' →
        let second := outcome.2.2.perform measure next
        let once := s.perform measure (.trimTo (min target target'))
        outcome.2.1 ++ second.2.1 = once.2.1 ∧ second.2.2.kept = once.2.2.kept)) := by
  intro s
  have consistent : s.Consistent measure :=
    Session.store_consistent measure hook budget p steps
  refine ⟨⟨consistent.keysOldestFirst_kept, consistent.total_kept.1, consistent.find?_kept⟩, ?_, ?_⟩
  · intro key value fits size others
    obtain ⟨evicted, left, cut, gone, stays⟩ := Store.put_cut consistent key value fits
    refine ⟨evicted, left, cut, gone, stays, fun room => ?_⟩
    exact cut.unique (.nothing (Nat.le_sub_of_add_le room))
  · intro use target trims
    exact ⟨Store.perform_cut consistent trims, Store.perform_within consistent trims,
      fun _ _ trims' => Store.perform_twice consistent trims trims'⟩

/-- **Not vacuous**: of entries of four, three and three, trimming to five takes two off.
A put of six takes one off, as the second is its own old entry. Trimming to seven and
then to half of the budget releases what trimming to five does. -/
theorem evicts_shortest_prefix_two :
    let p : CacheProgram Nat Count := .ofCalls [.put 1 4, .put 2 3, .put 3 3]
    let s := ((Session.start (.empty 10) p).advance (fun _ v => v) .quiet 7).store
    let halved := (s.perform (fun _ v => v) (.trimTo 7)).2.2.perform (fun _ v => v)
      (.trimToShare 0.5)
    (∃ evicted left, Kept.Cut 5 s.kept evicted left ∧
      (s.perform (fun _ v => v) (.trimTo 5)).2.1 = evicted.map (Kept.leave .trimmed)) ∧
    (s.perform (fun _ v => v) (.trimTo 5)).2.1 = [⟨1, 4, .trimmed⟩, ⟨2, 3, .trimmed⟩] ∧
    (∃ evicted left, Kept.Cut 4 (s.kept.filter fun e => !(e.key == 2)) evicted left ∧
      (s.perform (fun _ v => v) (.put 2 6)).2.2.kept = left ++ [⟨2, 6, 6⟩]) ∧
    (s.perform (fun _ v => v) (.put 2 6)).2.1 = [⟨2, 3, .replaced⟩, ⟨1, 4, .capacity⟩] ∧
    (s.perform (fun _ v => v) (.trimTo 7)).2.1 ++ halved.2.1
      = (s.perform (fun _ v => v) (.trimTo 5)).2.1 := by
  have budget : ((Session.start (.empty 10) (.ofCalls [.put 1 4, .put 2 3, .put 3 3])).advance
      (fun (_ : Nat) v => v) .quiet 7).store.budget = 10 := by cbv
  have half : Store.shareTarget? 10 0.5 = some 5 := by decide +kernel
  obtain ⟨_, puts, trims⟩ := evicts_shortest_prefix (fun (_ : Nat) v => v) .quiet 10
    (.ofCalls [.put 1 4, .put 2 3, .put 3 3]) 7
  obtain ⟨evicted, left, cut, _, stays, _⟩ := puts 2 6 (by rw [budget]; decide)
  obtain ⟨⟨gone, rest, cut', left', _⟩, _⟩ := trims (.trimTo 5) 5 rfl
  rw [budget] at cut
  refine ⟨⟨gone, rest, cut', left'⟩, by cbv, ⟨evicted, left, cut, stays⟩, by cbv, ?_⟩
  refine ((trims (.trimTo 7) 7 rfl).2.2 (.trimToShare 0.5) 5 ?_).1
  exact (congrArg (Store.shareTarget? · 0.5) ((Store.shrink_budget _ _).trans budget)).trans half

end ReadAhead
