/-!
  Counts — 64-bit page numbers, page counts, byte counts and limits

  Documents, budgets and limits are counted in 64-bit words. Besides the
  operations of words themselves, which wrap, three are needed that do not:
  addition that stops at the largest word, subtraction that stops at zero, and
  the distance between two words. A product or a natural number that may not fit
  is an `Option`.

  What is proved: `toNat_addCapped`, `toNat_subFloored` and `toNat_distance`
  say what each of them is on natural numbers, so that later arguments are
  arguments about `Nat`.
-/

namespace ReadAhead

abbrev Count := UInt64

namespace Count

def largest : Count := 0xffffffffffffffff

/-- The sum of two counts, or the largest count if the sum does not fit. -/
def addCapped (a b : Count) : Count :=
  let sum := a + b
  if sum < a then largest else sum

/-- The difference of two counts, or zero if the second is the larger. -/
def subFloored (a b : Count) : Count := if b ≤ a then a - b else 0

def distance (a b : Count) : Count := if a ≤ b then b - a else a - b

def mul? (a b : Count) : Option Count :=
  let product := a.toNat * b.toNat
  if product < UInt64.size then some (UInt64.ofNat product) else none

def ofNat? (n : Nat) : Option Count :=
  if n < UInt64.size then some (UInt64.ofNat n) else none

def add? (a b : Count) : Option Count := ofNat? (a.toNat + b.toNat)

theorem toNat_largest : largest.toNat = UInt64.size - 1 := rfl

theorem toNat_addCapped (a b : Count) :
    (addCapped a b).toNat = min (a.toNat + b.toNat) (UInt64.size - 1) := by
  have ha := a.toNat_lt
  have hb := b.toNat_lt
  simp only [addCapped, UInt64.lt_iff_toNat_lt, UInt64.toNat_add]
  split <;> simp only [toNat_largest, UInt64.toNat_add, UInt64.size] <;> omega

theorem toNat_subFloored (a b : Count) : (subFloored a b).toNat = a.toNat - b.toNat := by
  unfold subFloored
  split
  case isTrue h => exact UInt64.toNat_sub_of_le a b h
  case isFalse h =>
    rw [UInt64.le_iff_toNat_le] at h
    simp only [UInt64.toNat_zero]
    omega

theorem toNat_distance (a b : Count) :
    (distance a b).toNat = (a.toNat - b.toNat) + (b.toNat - a.toNat) := by
  unfold distance
  split
  case isTrue h =>
    rw [UInt64.toNat_sub_of_le b a h]
    rw [UInt64.le_iff_toNat_le] at h
    omega
  case isFalse h =>
    rw [UInt64.le_iff_toNat_le] at h
    rw [UInt64.toNat_sub_of_le a b (by rw [UInt64.le_iff_toNat_le]; omega)]
    omega

end Count

end ReadAhead
