import ReadAhead.Numeric.Count

/-!
  Numerals — counts and measured numbers, written out

  Two ways in which a setting may be written as text: a count is an optional
  plus sign and decimal digits, and must fit a 64-bit word; a measured number
  is a sign, and then the name of a special value or decimal digits with a
  point and an exponent.

  A decimal numeral denotes `mantissa · 10 ^ exponent`, exactly. `Decimal.nearest`
  is the double nearest to it; exponents of any size are admitted, so the far
  ends are cut off before anything large is computed.
-/

namespace ReadAhead.Text

def digit? (base : Nat) (c : Char) : Option Nat :=
  let value :=
    if '0' ≤ c ∧ c ≤ '9' then some (c.toNat - '0'.toNat)
    else if 'a' ≤ c ∧ c ≤ 'f' then some (c.toNat - 'a'.toNat + 10)
    else if 'A' ≤ c ∧ c ≤ 'F' then some (c.toNat - 'A'.toNat + 10)
    else none
  value.filter (· < base)

/-- The value of a run of digits; the empty run has none. -/
def digits? (base : Nat) : List Char → Option Nat
  | [] => none
  | cs => cs.foldl (fun acc c => do return (← acc) * base + (← digit? base c)) (some 0)

/-- The text cut at the first character that passes the test, which belongs to
neither part; the second part is missing if no character does. -/
def cut (p : Char → Bool) : List Char → List Char × Option (List Char)
  | [] => ([], none)
  | c :: cs =>
    if p c then ([], some cs)
    else
      let (before, after) := cut p cs
      (c :: before, after)

/-- A text without its sign, and whether the sign was a minus. -/
def signed : List Char → Bool × List Char
  | '-' :: cs => (true, cs)
  | '+' :: cs => (false, cs)
  | cs => (false, cs)

/-- Reads a count: an optional plus sign and decimal digits, nothing else, with
a value that fits. -/
def count? (cs : List Char) : Option Count :=
  let body := match cs with
    | '+' :: rest => rest
    | _ => cs
  (digits? 10 body).bind Count.ofNat?

/-- The number `mantissa · 10 ^ exponent`. -/
structure Decimal where
  mantissa : Nat
  exponent : Int
  deriving DecidableEq, Repr

namespace Decimal

/-- The double nearest to a decimal number. A number of at least `10 ^ 310` is
beyond all doubles, and one below `10 ^ -400` is nearest to zero: there
`mantissa < 10 ^ (log₂ mantissa / 3 + 1)`, as eight is less than ten. -/
def nearest (d : Decimal) : Float :=
  if d.mantissa = 0 then 0.0
  else if 310 ≤ d.exponent then Float.ofBits 0x7ff0000000000000
  else if d.exponent + (d.mantissa.log2 / 3 + 1) < -400 then 0.0
  else Float.ofScientific d.mantissa (d.exponent < 0) d.exponent.natAbs

/-- Assembles a decimal number from the digits before the point, the digits
behind it and the exponent. -/
def ofDigits? (whole fraction : List Char) (exponent : Int) : Option Decimal :=
  (digits? 10 (whole ++ fraction)).map fun m => ⟨m, exponent - fraction.length⟩

end Decimal

def integer? (cs : List Char) : Option Int :=
  let (negative, body) := signed cs
  (digits? 10 body).map fun n => if negative then -(n : Int) else n

/-- Whether a text spells a word of small letters, in letters of either case. -/
def spells (word : String) (cs : List Char) : Bool := cs.map Char.toLower == word.toList

/-- Reads a measured number without its sign: a special value by name, or
digits with an optional point among or around them and an optional exponent.
There is at least one digit before the exponent and one in it. -/
def magnitude? (cs : List Char) : Option Float :=
  if spells "inf" cs || spells "infinity" cs then some (Float.ofBits 0x7ff0000000000000)
  else if spells "nan" cs then some (Float.ofBits 0x7ff8000000000000)
  else do
    let (mantissa, scale) := cut (fun c => c == 'e' || c == 'E') cs
    let (whole, fraction) := cut (· == '.') mantissa
    let exponent ← match scale with
      | none => some 0
      | some digits => integer? digits
    -- a point with digits on one side only is enough, a lone point is not
    let d ← Decimal.ofDigits? whole (fraction.getD []) exponent
    return d.nearest

def measure? (cs : List Char) : Option Float :=
  let (negative, body) := signed cs
  (magnitude? body).map fun x => if negative then -x else x

end ReadAhead.Text
