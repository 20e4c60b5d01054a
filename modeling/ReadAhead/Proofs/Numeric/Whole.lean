import ReadAhead.Numeric.Scientific
import ReadAhead.Proofs.Numeric.Number

/-!
  Whole — counts that become doubles, and counts again

  A count of more than 53 bits need not be a double. It becomes the nearest one, and of
  two equally near the one with the even mantissa; so a count that is made a double and
  a count again may have become smaller or larger.

  Here it counts what the bits that are dropped tell about rounding. They are the
  remainder of a division by a power of two, and all that is kept of it is where it is
  relative to zero and to the half of the divisor (`Divided`).

  What is proved:
    1. `Divided.roundedMantissa` — so rounding drops bits by a division that is rounded
       to the nearest number, a half to the even one.
    2. `worth_ofNat` — the double for a count is worth the count rounded to 53 bits
       (`nearest`), and a product with one is worth the same (`Worth.mul_one`).
    3. `floorCount_whole` — the way back changes no more than what does not fit.
    4. `nearest_eq_iff` — a count stays the same if and only if all its bits but the first
       53 are zero.
-/

namespace ReadAhead.Binary64

open Float.Model (Format UnpackedFloat totalExponent)
open Float.Model.UnpackedFloat
open Scientific (roundedQuotient)

/-! ## Rounded quotients -/

theorem roundedQuotient_mul_right (num den : Nat) {c : Nat} (pos : 0 < c) :
    roundedQuotient (num * c) (den * c) = roundedQuotient num den := by
  have less : 2 * (num % den * c) < den * c ↔ 2 * (num % den) < den := by
    rw [← Nat.mul_assoc]
    exact Nat.mul_lt_mul_right pos
  have same : 2 * (num % den * c) = den * c ↔ 2 * (num % den) = den := by
    rw [← Nat.mul_assoc]
    exact Nat.mul_left_inj (Nat.ne_of_gt pos)
  unfold roundedQuotient
  simp only [Nat.mul_div_mul_right num den pos, Nat.mul_mod_mul_right, less, same]

theorem roundedQuotient_one (m : Nat) : roundedQuotient m 1 = m := by
  unfold roundedQuotient
  simp only [Nat.div_one, Nat.mod_one]
  rfl

theorem roundedQuotient_mul_self (m : Nat) {den : Nat} (pos : 0 < den) :
    roundedQuotient (m * den) den = m := by
  have cancelled := roundedQuotient_mul_right m 1 pos
  rwa [Nat.one_mul, roundedQuotient_one] at cancelled

/-- Multiplied back, a rounded quotient is the number if it was divided evenly. -/
theorem roundedQuotient_mul_eq_iff {num den : Nat} (pos : 0 < den) :
    roundedQuotient num den * den = num ↔ den ∣ num := by
  constructor
  · intro back
    exact ⟨_, (Nat.mul_comm _ _).trans back |>.symm⟩
  · rintro ⟨m, rfl⟩
    rw [Nat.mul_comm den m, roundedQuotient_mul_self m pos]

theorem roundedQuotient_bounds (num den : Nat) :
    num / den ≤ roundedQuotient num den ∧ roundedQuotient num den ≤ num / den + 1 := by
  unfold roundedQuotient
  dsimp only
  split <;> omega

/-! ## Dropping bits, and what they tell -/

/-- A quotient, and of the remainder where it is relative to the half of the divisor. -/
structure Divided (em : ExtendedMantissa) (num den : Nat) : Prop where
  quotient : em.mantissa = num / den
  half : em.roundBit = true ↔ den ≤ 2 * (num % den)
  between : em.stickyBit = true ↔ 2 * (num % den) ≠ 0 ∧ 2 * (num % den) ≠ den

theorem Divided.shiftRightOne {em : ExtendedMantissa} {num den : Nat} (pos : 0 < den)
    (d : Divided em num den) : Divided em.shiftRightOne num (den * 2) := by
  have rest : num % (den * 2) = num % den + den * (num / den % 2) := Nat.mod_mul
  have less := Nat.mod_lt num pos
  have bit := Nat.mod_two_eq_zero_or_one (num / den)
  have quotient := d.quotient
  have half := d.half
  have between := d.between
  constructor
  · show em.mantissa / 2 = num / (den * 2)
    rw [quotient, Nat.div_div_eq_div_mul]
  · show (em.mantissa % 2 != 0) = true ↔ _
    rw [rest, quotient, bne_iff_ne]
    rcases bit with zero | one <;> simp only [zero, one] <;> omega
  · show (em.roundBit || em.stickyBit) = true ↔ _
    rw [Bool.or_eq_true, half, between, rest]
    rcases bit with zero | one <;> simp only [zero, one] <;> omega

theorem divided_shiftRight (m n : Nat) :
    Divided ((⟨m, false, false⟩ : ExtendedMantissa) >>> n) m (2 ^ n) := by
  induction n with
  | zero =>
    refine ⟨(Nat.div_one m).symm, ?_, ?_⟩
    · show false = true ↔ 1 ≤ 2 * (m % 1)
      simp [Nat.mod_one]
    · show false = true ↔ 2 * (m % 1) ≠ 0 ∧ 2 * (m % 1) ≠ 1
      simp [Nat.mod_one]
  | succ n ih => exact ih.shiftRightOne (Nat.two_pow_pos n)

/-- **What was dropped rounds to the nearest**, a half to the even one. -/
theorem Divided.roundedMantissa {em : ExtendedMantissa} {num den : Nat}
    (d : Divided em num den) : em.roundedMantissa = roundedQuotient num den := by
  obtain ⟨m, round, sticky⟩ := em
  obtain ⟨rfl, half, between⟩ := d
  unfold roundedQuotient
  cases round <;> cases sticky <;>
    simp only [ExtendedMantissa.roundedMantissa, ExtendedMantissa.accuracy,
      Accuracy.roundToNearestEven, true_iff, false_iff, Bool.false_eq_true] at half between ⊢ <;>
    split <;> omega

/-- **A number as it is comes to its rounded quotient.** -/
theorem roundWithAccuracy_exact (s : Sign) (m : Nat) (e : Int) (le : e ≤ lastPlace (top m e)) :
    roundWithAccuracy .binary64 s m e .exact
      = settle s (roundedQuotient m (2 ^ (lastPlace (top m e) - e).toNat)) (lastPlace (top m e)) := by
  rw [roundWithAccuracy_settle s m e .exact le]
  congr 1
  rw [← (divided_shiftRight m _).roundedMantissa]
  unfold shiftToTargetExponent shiftToExponent
  rw [targetExponent_eq]
  rfl

/-! ## What a double is worth -/

/-- A double above zero that is worth a natural number. -/
def Worth (u : UnpackedFloat) (n : Nat) : Prop :=
  ∃ m e pos, Canonical m e ∧ u = .finite .positive m e pos ∧
    m * 2 ^ e.toNat = n * 2 ^ (-e).toNat

theorem Canonical.settle_eq {m : Nat} {e : Int} (c : Canonical m e) (s : Sign) (pos : 0 < m) :
    settle s m e = .finite s m e pos := by
  rw [settle, dif_neg (Nat.ne_of_gt pos), if_pos c.small]

/-- **Multiplied by one, a double is the same.** -/
theorem Worth.mul_one {u : UnpackedFloat} {n : Nat} (w : Worth u n) :
    repack (UnpackedFloat.mul .binary64 u one) = u := by
  obtain ⟨m, e, pos, canonical, rfl, _⟩ := w
  have product : UnpackedFloat.mul .binary64 (.finite .positive m e pos) one
      = roundWithAccuracy .binary64 .positive (m * 4503599627370496) (e + -52) .exact := rfl
  have unit : 4503599627370496 = 2 ^ 52 := by decide
  rw [unit] at product
  have place : top (m * 2 ^ 52) (e + -52) = top m e := by
    rw [← Nat.shiftLeft_eq]
    exact top_shiftLeft pos 52 e
  have last := canonical.lastPlace_eq
  have le : e + -52 ≤ lastPlace (top (m * 2 ^ 52) (e + -52)) := by
    rw [place, last]
    omega
  have amount : (e - (e + -52)).toNat = 52 := by omega
  rw [product, roundWithAccuracy_exact _ _ _ le, place, last, amount,
    roundedQuotient_mul_self m (Nat.two_pow_pos 52), canonical.settle_eq _ pos]
  exact unpack_pack canonical .positive pos

theorem Worth.toUInt64 {u : UnpackedFloat} {n : Nat} (w : Worth u n) :
    u.toUInt64 = UInt64.ofNatClamp n := by
  obtain ⟨m, e, pos, _, rfl, value⟩ := w
  have amount : (0 - (e - (e - 0).toNat)).toNat = (-e).toNat := by omega
  have back : UnpackedFloat.roundToInt .positive m e = n := by
    unfold UnpackedFloat.roundToInt decreaseExponent shiftToExponent
    dsimp only
    rw [mantissa_shiftRight, mantissa_ofMantissaAndAccuracy, amount, Int.sub_zero,
      Nat.shiftLeft_eq, value, Nat.mul_div_cancel _ (Nat.two_pow_pos _)]
    rfl
  show UInt64.ofNatClamp (UnpackedFloat.roundToInt .positive m e).toNat = _
  rw [back, Int.toNat_natCast]

/-! ## Counts -/

/-- A number rounded to 53 bits: to the nearest, a half to the one with an even
mantissa. -/
def nearest (n : Nat) : Nat := roundedQuotient n (2 ^ (n.log2 - 52)) * 2 ^ (n.log2 - 52)

theorem nearest_eq_iff (n : Nat) : nearest n = n ↔ 2 ^ (n.log2 - 52) ∣ n :=
  roundedQuotient_mul_eq_iff (Nat.two_pow_pos _)

theorem worth_round {n : Nat} (pos : 0 < n) (small : n < 2 ^ 53) :
    Worth (repack (UnpackedFloat.round .binary64 .positive n 0)) n := by
  have bits : n.log2 < 53 := (Nat.log2_lt (Nat.ne_of_gt pos)).mpr small
  have canonical : Canonical (n * 2 ^ (52 - n.log2)) (n.log2 - 52) := by
    refine ⟨?_, by omega, by omega, .inr ?_⟩
    · calc n * 2 ^ (52 - n.log2)
        _ < 2 ^ (n.log2 + 1) * 2 ^ (52 - n.log2) :=
          Nat.mul_lt_mul_of_pos_right Nat.lt_log2_self (Nat.two_pow_pos _)
        _ = 2 ^ 53 := by rw [← Nat.pow_add]; congr 1; omega
    · calc 2 ^ 52
        _ = 2 ^ n.log2 * 2 ^ (52 - n.log2) := by rw [← Nat.pow_add]; congr 1; omega
        _ ≤ n * 2 ^ (52 - n.log2) := Nat.mul_le_mul_right _ (Nat.log2_self_le (Nat.ne_of_gt pos))
  have shifted_pos : 0 < n * 2 ^ (52 - n.log2) := Nat.mul_pos pos (Nat.two_pow_pos _)
  obtain ⟨k, le, _, rounded⟩ := round_eq .positive (m := n) (e := 0)
  have place : top (n <<< k) (0 - k) = n.log2 := by
    rw [top_shiftLeft pos, top, Int.add_zero]
  have last : lastPlace (n.log2 : Int) = n.log2 - 52 := by
    unfold lastPlace
    omega
  rw [top, Int.add_zero, last] at le
  -- of the bits that were added, those beyond the 53rd are dropped again
  have divided : n <<< k
      = n * 2 ^ (52 - n.log2) * 2 ^ ((n.log2 : Int) - 52 - (0 - k)).toNat := by
    rw [Nat.shiftLeft_eq, Nat.mul_assoc, ← Nat.pow_add]
    congr 2
    omega
  have le' : 0 - k ≤ lastPlace (top (n <<< k) (0 - k)) := by rwa [place, last]
  rw [rounded, roundWithAccuracy_exact _ _ _ le', place, last, divided,
    roundedQuotient_mul_self _ (Nat.two_pow_pos _), canonical.settle_eq _ shifted_pos,
    unpack_pack canonical]
  refine ⟨_, _, shifted_pos, canonical, rfl, ?_⟩
  have no_shift : ((n.log2 : Int) - 52).toNat = 0 := by omega
  have amount : (-((n.log2 : Int) - 52)).toNat = 52 - n.log2 := by omega
  rw [no_shift, amount, Nat.pow_zero, Nat.mul_one]

theorem worth_settle {q k : Nat} (least : 2 ^ 52 ≤ q) (most : q ≤ 2 ^ 53) (low : k ≤ 970) :
    Worth (repack (settle .positive q k)) (q * 2 ^ k) := by
  by_cases few : q < 2 ^ 53
  · have canonical : Canonical q k := ⟨few, by omega, by omega, .inr least⟩
    rw [canonical.settle_eq _ (by omega), unpack_pack canonical]
    refine ⟨q, k, by omega, canonical, rfl, ?_⟩
    have no_shift : (-(k : Int)).toNat = 0 := by omega
    rw [no_shift, Int.toNat_natCast, Nat.pow_zero, Nat.mul_one]
  · obtain rfl : q = 2 ^ 53 := by omega
    have canonical : Canonical (2 ^ 52) (k + 1) :=
      ⟨by decide, by omega, by omega, .inr (Nat.le_refl _)⟩
    rw [settle, dif_neg (by decide), if_neg (Nat.lt_irrefl _), unpack_pack canonical]
    refine ⟨2 ^ 52, k + 1, by decide, canonical, rfl, ?_⟩
    have no_shift : (-((k : Int) + 1)).toNat = 0 := by omega
    have amount : ((k : Int) + 1).toNat = k + 1 := by omega
    rw [no_shift, amount, Nat.pow_zero, Nat.mul_one, ← Nat.pow_add, ← Nat.pow_add]
    congr 1
    omega

/-- **The double for a count is worth its first 53 bits, rounded.** -/
theorem worth_ofNat {n : Nat} (pos : 0 < n) (word : n < 2 ^ 64) :
    Worth (Quantity.ofNat n : Float).toModel.unpack (nearest n) := by
  rcases unpack_ofNat_cases pos with ⟨small, times_one⟩ | ⟨large, digits⟩
  · have bits : n.log2 < 53 := (Nat.log2_lt (Nat.ne_of_gt pos)).mpr small
    have unrounded : nearest n = n := by
      rw [nearest_eq_iff, Nat.sub_eq_zero_of_le (Nat.le_of_lt_succ bits)]
      exact Nat.one_dvd n
    have worth := worth_round pos small
    rw [times_one, worth.mul_one, unrounded]
    exact worth
  · have bits : 53 ≤ n.log2 := (Nat.le_log2 (Nat.ne_of_gt pos)).mpr large
    have bits' : n.log2 < 64 := (Nat.log2_lt (Nat.ne_of_gt pos)).mpr word
    have place : top (n <<< 53) (-53) = n.log2 := by
      have shifted := top_shiftLeft pos 53 0
      rwa [top, Int.zero_sub] at shifted
    have last : lastPlace (n.log2 : Int) = ((n.log2 - 52 : Nat) : Int) := by
      unfold lastPlace
      omega
    have le : (-53 : Int) ≤ lastPlace (top (n <<< 53) (-53)) := by
      rw [place, last]
      omega
    have amount : (((n.log2 - 52 : Nat) : Int) - (-53)).toNat = n.log2 - 52 + 53 := by omega
    rw [digits, roundWithAccuracy_exact _ _ _ le, place, last, amount,
      Nat.shiftLeft_eq, Nat.pow_add, roundedQuotient_mul_right _ _ (Nat.two_pow_pos 53)]
    obtain ⟨least, most⟩ := roundedQuotient_bounds n (2 ^ (n.log2 - 52))
    have kept : 2 ^ 52 ≤ n / 2 ^ (n.log2 - 52) := by
      rw [Nat.le_div_iff_mul_le (Nat.two_pow_pos _), ← Nat.pow_add,
        Nat.add_sub_cancel' (by omega)]
      exact Nat.log2_self_le (Nat.ne_of_gt pos)
    have fits : n / 2 ^ (n.log2 - 52) < 2 ^ 53 := by
      rw [Nat.div_lt_iff_lt_mul (Nat.two_pow_pos _), ← Nat.pow_add]
      calc n
        _ < 2 ^ (n.log2 + 1) := Nat.lt_log2_self
        _ = 2 ^ (53 + (n.log2 - 52)) := congrArg (2 ^ ·) (by omega)
    have low : n.log2 - 52 ≤ 970 := by omega
    exact worth_settle (Nat.le_trans kept least)
      (Nat.le_trans most (Nat.succ_le_of_lt fits)) low

/-! ## One, and above -/

theorem unpack_ofNat_one : (Quantity.ofNat 1 : Float).toModel.unpack = one := by rfl

/-- **A finite share of one or more counts as one.** -/
theorem clampUnit_of_one_le {x : Float} (finite : x.isFinite = true) (least : 1 ≤ x) :
    Quantity.clampUnit x = (Quantity.ofNat 1 : Float) := by
  replace least : Quantity.ofNat 1 ≤ x := least
  have nonneg : ¬ x < Quantity.ofNat 0 := by
    intro below
    rw [lt_iff] at below
    rw [le_iff, unpack_ofNat_one] at least
    rcases unpack_of_isFinite finite with ⟨s, unpacked⟩ | ⟨s, m, e, pos, _, unpacked⟩
    · rw [unpacked] at below
      cases below
    · rw [unpacked] at below least
      cases s with
      | positive => cases below
      | negative => cases least
  rw [Quantity.clampUnit, if_neg nonneg]
  rcases lt_or_beq_of_le least with above | same
  · exact if_pos above
  · have equal : x = Quantity.ofNat 1 := by
      rcases unpack_of_beq same with equal | ⟨_, _, zero, _⟩
      · exact eq_of_unpack equal.symm
      · rw [unpack_ofNat_one] at zero
        cases zero
    rw [equal, ite_self]

/-- **A count that is made a double and a count again** is its first 53 bits, rounded, or
the largest count. -/
theorem floorCount_whole (n : Count) :
    (Quantity.floorCount (Quantity.ofCount n * (Quantity.ofNat 1 : Float))).toNat
      = min (nearest n.toNat) (UInt64.size - 1) := by
  rcases Nat.eq_zero_or_pos n.toNat with zero | pos
  · obtain rfl : n = 0 := UInt64.toNat_inj.mp zero
    decide +kernel
  · have worth := worth_ofNat pos n.toNat_lt
    have product : (Quantity.ofCount n * (Quantity.ofNat 1 : Float)).toModel.unpack
        = (Quantity.ofNat n.toNat : Float).toModel.unpack := worth.mul_one
    rw [← product] at worth
    show ((Quantity.ofCount n * (Quantity.ofNat 1 : Float)).toModel.unpack.toUInt64).toNat = _
    rw [worth.toUInt64, UInt64.ofNatClamp]
    split
    · rw [UInt64.toNat_ofNatLT]
      omega
    · rw [UInt64.toNat_ofNatLT]
      omega

end ReadAhead.Binary64
