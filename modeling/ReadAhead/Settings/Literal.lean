import ReadAhead.Text.Numeral

/-!
  Literals — numbers as a settings document writes them

  An integer is decimal with an optional sign and no idle zero in front, or
  unsigned in base sixteen, eight or two. A real has a fraction, an exponent or
  both, or is one of the special values. Single underscores may separate the
  digits of a run.

  `count?` and `measure?` say which literals a setting of either kind admits.
-/

namespace ReadAhead.Settings

inductive Literal where
  | integer (value : Int)
  | real (value : Float)

namespace Literal

/-- The digits of a run in the base, without the underscores between them. An
underscore has a digit on either side. -/
def run? (base : Nat) : List Char → Option (List Char)
  | [] => none
  | [c] => (Text.digit? base c).map fun _ => [c]
  | c :: '_' :: cs => do
    let _ ← Text.digit? base c
    return c :: (← run? base cs)
  | c :: cs => do
    let _ ← Text.digit? base c
    return c :: (← run? base cs)

/-- The digits of a decimal run that has no idle zero in front. -/
def whole? (cs : List Char) : Option (List Char) :=
  (run? 10 cs).filter fun ds => ds.length == 1 || ds.head? != some '0'

/-- An unsigned integer in a base with digits behind a two-letter mark. -/
def based? : List Char → Option Literal
  | '0' :: 'x' :: cs => integerIn 16 cs
  | '0' :: 'o' :: cs => integerIn 8 cs
  | '0' :: 'b' :: cs => integerIn 2 cs
  | _ => none
where
  integerIn (base : Nat) (cs : List Char) : Option Literal := do
    let digits ← run? base cs
    return .integer (← Text.digits? base digits)

/-- The exponent of a real: signed digits, where zeros in front are idle but
allowed. -/
def exponent? (cs : List Char) : Option Int := do
  let (negative, body) := Text.signed cs
  let n ← Text.digits? 10 (← run? 10 body)
  return if negative then -(n : Int) else n

/-- A number without its sign. A real that is finite as written is refused if
it is beyond all doubles. -/
def unsigned? (negative : Bool) (cs : List Char) : Option Literal :=
  let sign (x : Float) : Float := if negative then -x else x
  if cs = "inf".toList then some (.real (sign (Float.ofBits 0x7ff0000000000000)))
  else if cs = "nan".toList then some (.real (sign (Float.ofBits 0x7ff8000000000000)))
  else do
    let (mantissa, scale) := Text.cut (fun c => c == 'e' || c == 'E') cs
    let (whole, fraction) := Text.cut (· == '.') mantissa
    let wholeDigits ← whole? whole
    match fraction, scale with
    | none, none =>
      let n ← Text.digits? 10 wholeDigits
      return .integer (if negative then -(n : Int) else n)
    | _, _ =>
      let fractionDigits ← match fraction with
        | none => some []
        | some ds => run? 10 ds
      let exponent ← match scale with
        | none => some 0
        | some ds => exponent? ds
      let d ← Text.Decimal.ofDigits? wholeDigits fractionDigits exponent
      if d.nearest.isFinite then return .real (sign d.nearest) else none

def read? (cs : List Char) : Option Literal :=
  (based? cs).or (let (negative, body) := Text.signed cs; unsigned? negative body)

/-- The count that a literal stands for: an integer that is not negative and
fits. -/
def count? : Literal → Option Count
  | .integer (.ofNat n) => Count.ofNat? n
  | _ => none

/-- The measured number that a literal stands for: a real, or an integer of at
most sixty-four bits. -/
def measure? : Literal → Option Float
  | .integer n => if -Int.pow 2 63 ≤ n ∧ n < Int.pow 2 64 then some (Float.ofInt n) else none
  | .real x => some x

end Literal

end ReadAhead.Settings
