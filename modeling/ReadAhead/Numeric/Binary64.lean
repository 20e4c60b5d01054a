import ReadAhead.Numeric.Quantity

/-!
  Binary64 — quantities as IEEE doubles

  The instance of `Quantity` on which the library runs. All its arithmetic is
  the machine's own, one rounding for each operation. Only two things are
  made here: the length of a vector of two coordinates, computed so that the
  squares neither overflow nor vanish and the error of the square root is
  corrected once (`hypotenuse`), and the angles that rest on it.
-/

namespace ReadAhead

namespace Binary64

/-- The double nearest to the half circumference of the unit circle. -/
private def pi : Float := Float.ofBits 0x400921fb54442d18

def toRadians (degrees : Float) : Float := degrees * (pi / 180.0)

def toDegrees (radians : Float) : Float := radians * (180.0 / pi)

/-- The length of `(long, short)` for `0 ≤ short ≤ long` of moderate size. The
square root of the sum of squares is corrected by its residual, which is
computed from differences that are exact or nearly so. -/
private def correctedLength (long short : Float) : Float :=
  let h := (long * long + short * short).sqrt
  let residual :=
    if h ≤ 2.0 * short then
      let delta := h - short
      long * (2.0 * delta - long) + (delta - 2.0 * (long - short)) * delta
    else
      let delta := h - long
      2.0 * delta * (long - 2.0 * short) + ((4.0 * delta - short) * short + delta * delta)
  h - residual / (2.0 * h)

/-- The length of the vector `(x, y)`. Where the shorter coordinate cannot be
seen next to the longer one it is only added; very long and very short vectors
are scaled by a power of two first. -/
def hypotenuse (x y : Float) : Float :=
  let long := if x.abs < y.abs then y.abs else x.abs
  let short := if x.abs < y.abs then x.abs else y.abs
  if short ≤ long * Float.ofScientific 1 true 17 then long + short
  else if Float.ofScientific 1 false 150 < long then
    -- two to the power of minus 600
    let scale := Float.ofBits 0x1a70000000000000
    correctedLength (long * scale) (short * scale) / scale
  else if short < Float.ofScientific 1 true 130 then
    -- two to the power of 600
    let scale := Float.ofBits 0x6570000000000000
    correctedLength (long * scale) (short * scale) / scale
  else correctedLength long short

end Binary64

instance : Quantity Float where
  ofNat := Float.ofNat
  isFinite := Float.isFinite
  abs := Float.abs
  sqrt := Float.sqrt
  floorCount := Float.toUInt64
  pitchDegrees v := Binary64.toDegrees (Float.atan2 v.y (Binary64.hypotenuse v.x v.z))
  toDecidableLT := fun a b => Float.decLt a b
  toDecidableLE := fun a b => Float.decLe a b

end ReadAhead
