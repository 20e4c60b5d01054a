import ReadAhead.Proofs.Cache.Budget
import ReadAhead.Proofs.Cache.Eviction
import ReadAhead.Proofs.Numeric.Whole

/-!
  Whole budget — what trimming to all of the budget keeps

  To trim to a share of its budget, the cache makes the budget a double, multiplies it by
  the share and makes the product a count again. A share of one or more counts as one.
  The product is then the budget rounded to 53 bits, and that can be less than the
  budget, or more.

  What is proved:
    1. `toNat_shareOf_whole` — the target is the budget rounded to the nearest double, or
       the largest count if that does not fit.
    2. `keepsWhole_iff_target` — whatever the cache holds, trimming to the whole budget
       evicts nothing from a cache within it, and every entry beyond it, if and only if
       the target is the budget.
    3. `whole_budget_kept_iff` — so this holds for the budgets that are doubles, and for
       the largest one, and for no other.
    4. `whole_budget_kept_ten` (anti-vacuity) — a small budget is kept.
    5. `whole_budget_not_kept` — one of 54 bits loses an entry that fits it.
-/

namespace ReadAhead

open Std
open Binary64 (nearest)

/-! ## The target -/

/-- **A share of one or more comes to the budget rounded to the nearest double.** -/
theorem toNat_shareOf_whole (budget : Count) {share : Float} (finite : share.isFinite = true)
    (least : 1 ≤ share) :
    (Store.shareOf budget share).toNat = min (nearest budget.toNat) (UInt64.size - 1) := by
  rw [Store.shareOf, Binary64.clampUnit_of_one_le finite least]
  exact Binary64.floorCount_whole budget

/-- It is the budget if the bits beyond the first 53 are zero, or if no count is larger. -/
theorem shareOf_whole_eq_iff (budget : Count) {share : Float} (finite : share.isFinite = true)
    (least : 1 ≤ share) :
    Store.shareOf budget share = budget ↔
      2 ^ (budget.toNat.log2 - 52) ∣ budget.toNat ∨ budget = Count.largest := by
  have word := budget.toNat_lt
  have size : UInt64.size = 2 ^ 64 := rfl
  have target := toNat_shareOf_whole budget finite least
  rw [← UInt64.toNat_inj, target, ← Binary64.nearest_eq_iff, ← UInt64.toNat_inj,
    Count.toNat_largest]
  constructor
  · intro same
    omega
  · rintro (same | most)
    · omega
    · have beyond : nearest (UInt64.size - 1) = 2 ^ 64 := by decide +kernel
      rw [most, beyond]
      rfl

/-! ## What is kept -/

/-- Trimming to a share of a budget, and relieving the least pressure, evict nothing from a
cache within the budget, and every entry beyond it. -/
def KeepsWhole (budget : Count) (share : Float) : Prop :=
  ∀ {K V : Type} [BEq K] [Hashable K] [EquivBEq K] [LawfulHashable K]
    (measure : K → V → Count) (hook : ReleaseHook K V) (first : Count)
    (p : CacheProgram K V) (steps : Nat),
    let s := ((Session.start (.empty first) p).advance measure hook steps).store
    s.budget = budget → ∀ use ∈ [CacheCall.trimToShare share, .relieve .low],
      (s.size ≤ budget →
        (s.perform measure use).1 = .evicted 0 ∧ (s.perform measure use).2.1 = []) ∧
      ∀ e ∈ s.kept, budget < e.size → e.leave .trimmed ∈ (s.perform measure use).2.1

namespace Store

set_option linter.unusedSectionVars false

variable {K V : Type} [BEq K] [Hashable K] [EquivBEq K] [LawfulHashable K]
variable {measure : K → V → Count} {s : Store K V} {use : CacheCall K V}

theorem trimTarget?_whole (budget : Count) {share : Float} (finite : share.isFinite = true)
    (least : 1 ≤ share) (either : use ∈ [CacheCall.trimToShare share, .relieve .low]) :
    use.trimTarget? budget = some (shareOf budget share) := by
  have low : Pressure.low.retainedShare.isFinite = true ∧ 1 ≤ Pressure.low.retainedShare := by
    decide +kernel
  rw [List.mem_pair] at either
  rcases either with rfl | rfl
  · exact if_pos finite
  · rw [CacheCall.trimTarget?, shareTarget?, if_pos low.1, shareOf, shareOf,
      Binary64.clampUnit_of_one_le low.1 low.2, Binary64.clampUnit_of_one_le finite least]

theorem perform_whole (h : s.Consistent measure) (trims : use.trimTarget? s.budget = some s.budget) :
    (s.size ≤ s.budget → (s.perform measure use).2.1 = []) ∧
      ∀ e ∈ s.kept, s.budget < e.size → e.leave .trimmed ∈ (s.perform measure use).2.1 := by
  refine ⟨fun within => (perform_within h trims within).1, ?_⟩
  intro e he large
  obtain ⟨evicted, left, cut, gone, _⟩ := perform_cut h trims
  rw [gone]
  exact List.mem_map_of_mem (cut.evicts he (UInt64.lt_iff_toNat_lt.mp large))

/-- A cache with one entry, whatever its size. -/
def single (budget size : Count) : Store Nat Count :=
  ((Session.start (.empty budget) (.ofCalls [.put 0 size])).advance (fun _ v => v) .quiet 1).store

theorem single_spec (budget size : Count) :
    (single budget size).Consistent (fun _ v => v) ∧ (single budget size).budget = budget ∧
      (single budget size).kept = [⟨0, size, size⟩] ∧ (single budget size).size = size := by
  have empty : (Store.empty budget : Store Nat Count).Consistent fun _ v => v :=
    empty_consistent budget
  have consistent : (single budget size).Consistent fun _ v => v := put_consistent empty 0 size
  have kept : (single budget size).kept = [⟨0, size, size⟩] := (put_kept empty 0 size).2
  have total := consistent.total_kept.1
  rw [kept, Kept.total_cons] at total
  exact ⟨consistent, (put_frame (fun _ v => v) (.empty budget) 0 size).2, kept,
    UInt64.toNat_inj.mp total.symm⟩

theorem single_trims {budget target : Count} {use : CacheCall Nat Count} (size : Count)
    (trims : use.trimTarget? budget = some target) :
    ((single budget size).perform (fun _ v => v) use).2.1 = [] ↔ size ≤ target := by
  obtain ⟨consistent, same, kept, whole⟩ := single_spec budget size
  rw [← same] at trims
  constructor
  · intro nothing
    obtain ⟨evicted, left, cut, gone, _⟩ := perform_cut consistent trims
    rw [nothing, eq_comm, List.map_eq_nil_iff] at gone
    have all := cut.whole
    have reached := cut.reached
    rw [gone, List.nil_append, kept] at all
    rw [all, Kept.total_cons] at reached
    exact UInt64.le_iff_toNat_le.mpr reached
  · intro within
    exact (perform_within consistent trims (by rwa [whole])).1

end Store

/-- **All of the budget is kept if the target is the budget.** If it is less, an entry of
the size of the budget is evicted; if it is more, one of the size of the target is not. -/
theorem keepsWhole_iff_target (budget : Count) {share : Float} (finite : share.isFinite = true)
    (least : 1 ≤ share) : KeepsWhole budget share ↔ Store.shareOf budget share = budget := by
  constructor
  · intro keeps
    have trims := Store.trimTarget?_whole (K := Nat) (V := Count) budget finite least
      List.mem_cons_self
    have spare (size : Count) :
        ((Store.single budget size).size ≤ budget →
          ((Store.single budget size).perform (fun _ v => v) (.trimToShare share)).1 = .evicted 0 ∧
          ((Store.single budget size).perform (fun _ v => v) (.trimToShare share)).2.1 = []) ∧
        ∀ e ∈ (Store.single budget size).kept, budget < e.size → e.leave .trimmed ∈
          ((Store.single budget size).perform (fun _ v => v) (.trimToShare share)).2.1 :=
      keeps (fun (_ : Nat) v => v) .quiet budget (.ofCalls [.put 0 size]) 1
        (Store.single_spec budget size).2.1 (.trimToShare share) List.mem_cons_self
    refine UInt64.le_antisymm (UInt64.not_lt.mp fun more => ?_) ?_
    · obtain ⟨_, _, kept, _⟩ := Store.single_spec budget (Store.shareOf budget share)
      have gone := (spare (Store.shareOf budget share)).2
      rw [(Store.single_trims _ trims).mpr (UInt64.le_refl _), kept] at gone
      exact absurd (gone _ List.mem_cons_self more) List.not_mem_nil
    · have whole := (Store.single_spec budget budget).2.2.2
      have nothing := ((spare budget).1 (by rw [whole]; exact UInt64.le_refl _)).2
      exact (Store.single_trims budget trims).mp nothing
  · intro same K V _ _ _ _ measure hook first p steps s inBudget use either
    have consistent : s.Consistent measure :=
      Session.store_consistent measure hook first p steps
    have trims := Store.trimTarget?_whole budget finite least either
    rw [same] at trims
    rw [← inBudget] at trims ⊢
    obtain ⟨nothing, large⟩ := Store.perform_whole consistent trims
    refine ⟨fun within => ⟨?_, nothing within⟩, large⟩
    have answer : (s.perform measure use).1 = .evicted (s.perform measure use).2.1.length := by
      rw [List.mem_pair] at either
      rcases either with rfl | rfl <;> rfl
    rw [answer, nothing within, List.length_nil]

/-- **Trimming to all of the budget keeps it, if the budget is a double.** A finite share
of one or more, and the least pressure, leave the budget rounded to 53 bits: to the
nearest double, of two equally near to the one with the even mantissa, and to the
largest count if no count is as large. So they evict nothing from a cache within its
budget, and every entry beyond it, for the budgets whose bits after the first 53 are
zero, and for the largest of all; for any other budget there is a cache where they
do not. -/
theorem whole_budget_kept_iff (budget : Count) (share : Float) (finite : share.isFinite = true)
    (least : 1 ≤ share) :
    (Store.shareOf budget share).toNat = min (nearest budget.toNat) (UInt64.size - 1) ∧
    (KeepsWhole budget share ↔
      2 ^ (budget.toNat.log2 - 52) ∣ budget.toNat ∨ budget = Count.largest) := by
  refine ⟨toNat_shareOf_whole budget finite least, ?_⟩
  rw [keepsWhole_iff_target budget finite least]
  exact shareOf_whole_eq_iff budget finite least

/-- **Not vacuous**: a budget of ten is kept, and so is the largest budget, which is no
double. -/
theorem whole_budget_kept_ten :
    KeepsWhole 10 1.5 ∧ KeepsWhole Count.largest 1 ∧ nearest Count.largest.toNat = 2 ^ 64 := by
  have ten := whole_budget_kept_iff 10 1.5 (by decide +kernel) (by decide +kernel)
  have largest := whole_budget_kept_iff Count.largest 1 (by decide +kernel) (by decide +kernel)
  exact ⟨ten.2.mpr (.inl (by decide +kernel)), largest.2.mpr (.inr rfl), by decide +kernel⟩

/-- **Not every budget is kept**: of 2 ^ 53 + 1, the target is one less, and an entry of this
size leaves a cache that it fits; of 2 ^ 53 + 3, it is one more. -/
theorem whole_budget_not_kept :
    ¬ KeepsWhole 9007199254740993 1 ∧
    Store.shareOf 9007199254740993 1 = 9007199254740992 ∧
    ((Store.single 9007199254740993 9007199254740993).perform (fun _ v => v) (.trimToShare 1)).2.1
      ≠ [] ∧
    ¬ KeepsWhole 9007199254740995 1 ∧
    Store.shareOf 9007199254740995 1 = 9007199254740996 := by
  have finite : (1 : Float).isFinite = true := by decide +kernel
  have least : (1 : Float) ≤ 1 := by decide +kernel
  have fewer : Store.shareOf 9007199254740993 1 = 9007199254740992 := by decide +kernel
  have more : Store.shareOf 9007199254740995 1 = 9007199254740996 := by decide +kernel
  have trims := Store.trimTarget?_whole (K := Nat) (V := Count) 9007199254740993 finite least
    List.mem_cons_self
  refine ⟨?_, fewer, ?_, ?_, more⟩
  · rw [keepsWhole_iff_target _ finite least, fewer]
    decide
  · rw [ne_eq, Store.single_trims _ trims, fewer]
    decide
  · rw [keepsWhole_iff_target _ finite least, more]
    decide

end ReadAhead
