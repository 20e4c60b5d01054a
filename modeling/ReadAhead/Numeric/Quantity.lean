import ReadAhead.Numeric.Count

/-!
  Quantities — the arithmetic of speeds, intervals and angles

  Every estimate of this library (reading speed, frame average, tilt) is a
  short formula over measured numbers. The formulas are written once, over any
  type with the operations collected in `Quantity`, in the order in which they
  are to be carried out. Run on `Float` they round at every step; read over an
  exact field the same definitions are the formulas of the textbook, and laws
  about them can be stated there.

  `floorCount` is the only way from a quantity back to a count: it drops the
  fraction, and stops at zero and at the largest count. `roundCount` is
  derived from it, with halves going up.
-/

namespace ReadAhead

/-- Three coordinates, in device directions: to the right, to the top of the
screen and out of the screen. -/
structure Axes (α : Type) where
  x : α
  y : α
  z : α
  deriving DecidableEq, Repr

namespace Axes

def map {α β : Type} (f : α → β) (v : Axes α) : Axes β := ⟨f v.x, f v.y, f v.z⟩

def zipWith {α β γ : Type} (f : α → β → γ) (v : Axes α) (w : Axes β) : Axes γ :=
  ⟨f v.x w.x, f v.y w.y, f v.z w.z⟩

def all {α : Type} (p : α → Bool) (v : Axes α) : Bool := p v.x && p v.y && p v.z

end Axes

/-- The operations that the estimates use on measured numbers. -/
class Quantity (α : Type) extends Add α, Sub α, Mul α, Div α, LT α, LE α, BEq α where
  /-- The quantity of a natural number, rounded to the nearest one. -/
  ofNat : Nat → α
  /-- Whether the quantity is a number, and not infinite. -/
  isFinite : α → Bool
  abs : α → α
  sqrt : α → α
  /-- The count just below the quantity; zero below zero, and the largest
  count above all counts. -/
  floorCount : α → Count
  /-- The angle in degrees by which the screen's top points above the horizon
  when gravity acts along the axes given. -/
  pitchDegrees : Axes α → α
  toDecidableLT : DecidableLT α
  toDecidableLE : DecidableLE α

attribute [reducible, instance] Quantity.toDecidableLT Quantity.toDecidableLE

namespace Quantity

variable {α : Type} [Quantity α]

def ofCount (n : Count) : α := ofNat n.toNat

/-- A quantity that is finite and above zero. -/
def isPositive (x : α) : Bool := isFinite x && decide ((ofNat 0 : α) < x)

/-- A smoothing weight: above zero and at most one. -/
def isWeight (x : α) : Bool := isPositive x && decide (x ≤ ofNat 1)

/-- The quantity, or zero if it is not above zero. -/
def positivePart (x : α) : α := if (ofNat 0 : α) < x then x else ofNat 0

/-- The quantity held between zero and one. -/
def clampUnit (x : α) : α :=
  if x < ofNat 0 then ofNat 0 else if (ofNat 1 : α) < x then ofNat 1 else x

/-- The sum of a list, first to last. -/
def sum (xs : List α) : α := xs.foldl (· + ·) (ofNat 0)

/-- The nearest count, with halves going up. The fraction that `floorCount`
drops is a half or more exactly when the nearest count is the next one. -/
def roundCount (x : α) : Count :=
  let below := floorCount x
  if ofNat 1 ≤ (x - ofCount below) + (x - ofCount below) then Count.addCapped below 1 else below

def magnitude (v : Axes α) : α := sqrt (v.x * v.x + v.y * v.y + v.z * v.z)

end Quantity

end ReadAhead
