/-!
  Scientific notation — a double to so many significant digits

  A double is a fraction, exactly. Its leading digit is found by comparing the
  fraction with powers of ten, and its digits are the fraction, scaled by a power
  of ten, rounded to a whole number once: to the nearest, a half to the even
  one. The exponent is written without a plus sign or idle zeros.
-/

namespace ReadAhead.Scientific

/-- The size of a finite double, exactly, as a numerator and a denominator. -/
def toFraction (x : Float) : Nat × Nat :=
  let bits := x.toBits.toNat % Nat.pow 2 63
  -- the leading bit of a mantissa, which is not among the stored ones
  let hidden := Nat.pow 2 52
  let exponent := max (bits / hidden) 1
  let mantissa := if bits < hidden then bits else bits % hidden + hidden
  if 1075 ≤ exponent then (mantissa * Nat.pow 2 (exponent - 1075), 1)
  else (mantissa, Nat.pow 2 (1075 - exponent))

/-- The quotient rounded to the nearest number, a half to the even one. -/
def roundedQuotient (num den : Nat) : Nat :=
  let below := num / den
  let rest := num % den
  if 2 * rest < den ∨ (2 * rest = den ∧ below % 2 = 0) then below else below + 1

/-- Whether a power of ten is at most a fraction. -/
def isPowerBelow (num den : Nat) (exponent : Int) : Bool :=
  if 0 ≤ exponent then Nat.pow 10 exponent.toNat * den ≤ num
  else den ≤ num * Nat.pow 10 (-exponent).toNat

/-- The decimal exponent of the leading digit of a positive fraction. The binary
logarithms tell it up to one. -/
def leadingExponent (num den : Nat) : Int :=
  let guess := ((num.log2 : Int) - (den.log2 : Int)) * 30103 / 100000
  if isPowerBelow num den (guess + 1) then guess + 1
  else if isPowerBelow num den guess then guess
  else guess - 1

/-- The digits of a positive fraction as a whole number of one digit more than
given, and the exponent of the first. Rounding may lead to the next power of
ten. -/
def digits (more : Nat) (num den : Nat) : Nat × Int :=
  let exponent := leadingExponent num den
  let scale := (more : Int) - exponent
  let rounded :=
    if 0 ≤ scale then roundedQuotient (num * Nat.pow 10 scale.toNat) den
    else roundedQuotient num (den * Nat.pow 10 (-scale).toNat)
  if rounded = Nat.pow 10 (more + 1) then (Nat.pow 10 more, exponent + 1)
  else (rounded, exponent)

/-- Writes a finite double with one digit in front of the point and so many
behind it. -/
def format (more : Nat) (x : Float) : String :=
  let (num, den) := toFraction x
  let (number, exponent) := if num = 0 then (0, 0) else digits more num den
  let text := Nat.toDigits 10 number
  let padded := List.replicate (more + 1 - text.length) '0' ++ text
  let sign := if x.toBits.toNat < Nat.pow 2 63 then "" else "-"
  sign ++ String.ofList (padded.take 1 ++ '.' :: padded.drop 1) ++ "e" ++ toString exponent

end ReadAhead.Scientific
