import Mathlib
import ReadAhead.Proofs.Numeric.Equality

/-!
  Signs of doubles — without a minus sign, equal doubles are the same

  Doubles that compare equal are the same but for the sign of a zero. The estimates
  of this library are made from counts and from positive measurements by sums,
  products and quotients, and the only difference among them takes a weight from
  one. None of that brings in a minus sign, so for them equality is what it seems.

  What is proved:
    1. `pack_unpack`, `eq_of_unpack` — a double is what it unpacks to.
    2. `unsigned_add`, `unsigned_mul`, `unsigned_div`, `unsigned_ofNat`,
       `unsigned_complement` — the operations above bring in no minus sign.
    3. `eq_of_beq_unsigned`, `eq_of_beq_pos` — doubles without one that compare equal are
       the same, and so are those above zero.
-/

namespace ReadAhead.Binary64

open Float.Model (Format UnpackedFloat)
open Float.Model.UnpackedFloat

/-! ## Words of a double -/

theorem packComponents_unpacked (b : BitVec Format.binary64.numBits) :
    packComponents .binary64 (Sign.ofBitVec (unpackSign b)) (unpackExponent b) (unpackMantissa b)
      = b := by
  have sign : (Sign.ofBitVec (unpackSign b)).toBitVec = unpackSign b := by
    generalize unpackSign b = s
    revert s
    decide
  rw [packComponents, sign]
  ext i hi
  simp only [unpackSign, unpackExponent, unpackMantissa, BitVec.getElem_append]
  grind

theorem pack_subnormal (s : Sign) {m : Nat} (pos : 0 < m) (below : m < 2 ^ 52) :
    UnpackedFloat.pack .binary64 (.finite s m (-1074) pos)
      = packComponents .binary64 s 0#_ (BitVec.ofNat _ m) := by
  have short : m.log2 < 52 := (Nat.log2_lt (Nat.ne_of_gt pos)).mpr below
  have odd : ¬ m.log2 + 1 = Format.binary64.mantissaBits := by
    show ¬ m.log2 + 1 = 53
    omega
  rw [UnpackedFloat.pack]
  exact (if_neg (by decide)).trans (if_neg odd)

theorem pack_normal (s : Sign) {m : Nat} (e : BitVec 11) (pos : 0 < m) (above : 2 ^ 52 ≤ m)
    (below : m < 2 ^ 53) (fits : e ≠ -1#_) :
    UnpackedFloat.pack .binary64 (.finite s m (e.toNat - 1075) pos)
      = packComponents .binary64 s e (BitVec.ofNat _ m) := by
  have long : m.log2 = 52 := (Nat.log2_eq_iff (Nat.ne_of_gt pos)).mpr ⟨above, below⟩
  have even : m.log2 + 1 = Format.binary64.mantissaBits := by
    rw [long]
    rfl
  have biased : ((e.toNat : Int) - 1075 + Format.binary64.exponentBias
      + Format.binary64.mantissaBitsWithoutImplicit).toNat = e.toNat := by
    show ((e.toNat : Int) - 1075 + 1023 + 52).toNat = e.toNat
    omega
  have small : ¬ 2 ^ Format.binary64.exponentBits ≤ e.toNat + 1 := by
    have bound := e.isLt
    have differs : e.toNat ≠ 2047 := fun same => fits (BitVec.eq_of_toNat_eq same)
    show ¬ 2048 ≤ e.toNat + 1
    omega
  rw [UnpackedFloat.pack, biased]
  refine (if_neg small).trans ((if_pos even).trans ?_)
  rw [BitVec.ofNat_toNat, BitVec.setWidth_eq]

/-- The mantissa of a normal number has one bit in front of the stored ones. -/
theorem toNat_implicit (m : BitVec 52) : (1#1 ++ m).toNat = 2 ^ 52 + m.toNat := by
  rw [BitVec.toNat_append, ← Nat.shiftLeft_add_eq_or_of_lt m.isLt]
  rfl

/-- Packing undoes unpacking: all that is no number has the one form that is allowed. -/
theorem pack_unpack {b : BitVec Format.binary64.numBits} (valid : Format.binary64.Valid b) :
    UnpackedFloat.pack .binary64 (unpack .binary64 b) = b := by
  have put := packComponents_unpacked b
  have mantissa := (unpackMantissa b).isLt
  unfold unpack
  dsimp only
  split
  · next full =>
    rw [full] at put
    split
    · next zero =>
      rw [zero] at put
      exact put
    · next other => exact (valid.eq_packedNaN full other).symm
  · next below =>
    split
    · next subnormal =>
      rw [subnormal] at put
      split
      · next zero =>
        rw [zero] at put
        exact put
      · next other =>
        have pos : 0 < (unpackMantissa b).toNat := by
          rwa [BitVec.toNat_pos, BitVec.pos_iff_ne_zero]
        rw [subnormal]
        refine (pack_subnormal _ pos mantissa).trans ?_
        rw [BitVec.ofNat_toNat, BitVec.setWidth_eq]
        exact put
    · next nonzero =>
      have whole : (1#1 ++ unpackMantissa b).toNat = 2 ^ 52 + (unpackMantissa b).toNat :=
        toNat_implicit (unpackMantissa b)
      have stored : BitVec.ofNat 52 (1#1 ++ unpackMantissa b).toNat = unpackMantissa b := by
        refine BitVec.eq_of_toNat_eq ?_
        rw [whole, BitVec.toNat_ofNat, Nat.add_mod_left, Nat.mod_eq_of_lt mantissa]
      refine (pack_normal _ (unpackExponent b) _ ?_ ?_ below).trans ?_
      · rw [whole]
        exact Nat.le_add_right _ _
      · rw [whole]
        exact Nat.add_lt_add_left mantissa _
      · rw [stored]
        exact put

theorem eq_of_unpack {a b : Float} (h : a.toModel.unpack = b.toModel.unpack) : a = b := by
  have word : a.toModel.toBits = b.toModel.toBits := by
    rw [← UInt64.toBitVec_inj, ← pack_unpack a.toModel.valid, ← pack_unpack b.toModel.valid]
    exact congrArg (UnpackedFloat.pack .binary64) h
  obtain ⟨⟨bits, valid⟩⟩ := a
  obtain ⟨⟨bits', valid'⟩⟩ := b
  cases word
  rfl

/-! ## Doubles without a minus sign -/

/-- No minus sign: above zero, the zero without one, or no number. -/
def IsUnsigned : UnpackedFloat → Prop
  | .notANumber => True
  | .infinity s | .zero s | .finite s _ _ _ => s = .positive

/-- A double without a minus sign. -/
def Unsigned (x : Float) : Prop := IsUnsigned x.toModel.unpack

theorem unpackSign_packComponents (spec : Format) (s : Sign) (e : BitVec spec.exponentBits)
    (m : BitVec spec.mantissaBitsWithoutImplicit) :
    unpackSign (packComponents spec s e m) = s.toBitVec := by
  ext i hi
  obtain rfl : i = 0 := Nat.lt_one_iff.mp hi
  simp [unpackSign, packComponents, BitVec.getLsbD_append, BitVec.getElem_append]

theorem isUnsigned_unpack {b : BitVec Format.binary64.numBits} (sign : unpackSign b = 0#1) :
    IsUnsigned (unpack .binary64 b) := by
  unfold unpack
  rw [sign]
  dsimp only
  split
  · split <;> trivial
  · split
    · split <;> rfl
    · rfl

theorem unpackSign_pack {u : UnpackedFloat} (h : IsUnsigned u) :
    unpackSign (UnpackedFloat.pack .binary64 u) = 0#1 := by
  cases u with
  | notANumber => rfl
  | infinity s | zero s =>
    cases h
    rfl
  | finite s m e pos =>
    cases h
    unfold UnpackedFloat.pack
    dsimp only
    split
    · rfl
    · split <;> exact unpackSign_packComponents ..

theorem unsigned_pack {u : UnpackedFloat} (h : IsUnsigned u) :
    Unsigned ⟨Float.Model.pack u⟩ :=
  isUnsigned_unpack (unpackSign_pack h)

/-! ## Operations -/

theorem isUnsigned_roundWithAccuracy (m : Nat) (e : Int) (acc : Accuracy) :
    IsUnsigned (roundWithAccuracy .binary64 .positive m e acc) := by
  unfold roundWithAccuracy
  dsimp only
  split <;> rfl

theorem isUnsigned_normalize {m : Int} (h : 0 ≤ m) (e : Int) :
    IsUnsigned (UnpackedFloat.normalize .binary64 m e .positive) := by
  unfold UnpackedFloat.normalize
  split
  · next below => exact absurd (Int.compare_eq_lt.mp below) (Int.not_lt.mpr h)
  · rfl
  · exact isUnsigned_roundWithAccuracy ..

section
variable {u v : UnpackedFloat}

theorem isUnsigned_add (hu : IsUnsigned u) (hv : IsUnsigned v) :
    IsUnsigned (UnpackedFloat.add .binary64 u v) := by
  cases u with
  | finite =>
    cases hu
    cases v with
    | finite =>
      cases hv
      exact isUnsigned_normalize (Int.add_nonneg (Int.natCast_nonneg _) (Int.natCast_nonneg _)) _
    | notANumber | infinity | zero =>
      cases hv
      trivial
  | notANumber | infinity | zero =>
    cases hu
    cases v <;> cases hv <;> trivial

theorem isUnsigned_mul (hu : IsUnsigned u) (hv : IsUnsigned v) :
    IsUnsigned (UnpackedFloat.mul .binary64 u v) := by
  cases u with
  | finite =>
    cases hu
    cases v with
    | finite =>
      cases hv
      exact isUnsigned_roundWithAccuracy ..
    | notANumber | infinity | zero =>
      cases hv
      trivial
  | notANumber | infinity | zero =>
    cases hu
    cases v <;> cases hv <;> trivial

theorem isUnsigned_div (hu : IsUnsigned u) (hv : IsUnsigned v) :
    IsUnsigned (UnpackedFloat.div .binary64 u v) := by
  cases u with
  | finite =>
    cases hu
    cases v with
    | finite =>
      cases hv
      exact isUnsigned_roundWithAccuracy ..
    | notANumber | infinity | zero =>
      cases hv
      trivial
  | notANumber | infinity | zero =>
    cases hu
    cases v <;> cases hv <;> trivial

end

variable {a b : Float}

theorem unsigned_add (ha : Unsigned a) (hb : Unsigned b) : Unsigned (a + b) :=
  unsigned_pack (isUnsigned_add ha hb)

theorem unsigned_mul (ha : Unsigned a) (hb : Unsigned b) : Unsigned (a * b) :=
  unsigned_pack (isUnsigned_mul ha hb)

theorem unsigned_div (ha : Unsigned a) (hb : Unsigned b) : Unsigned (a / b) :=
  unsigned_pack (isUnsigned_div ha hb)

theorem unsigned_of_pos (h : Quantity.ofNat 0 < a) : Unsigned a := by
  have above : UnpackedFloat.lt (.zero .positive) a.toModel.unpack = true := (lt_iff _ _).mp h
  unfold Unsigned
  generalize a.toModel.unpack = u at above ⊢
  cases u with
  | notANumber => trivial
  | infinity s | finite s =>
    cases s with
    | positive => rfl
    | negative => cases above
  | zero s => cases above

theorem isUnsigned_ofScientific (n : Nat) (e : Int) :
    IsUnsigned (UnpackedFloat.ofScientific .binary64 n e) := by
  have number {m : Nat} {e : Int} {pos : 0 < m} :
      IsUnsigned (.finite .positive m e pos) := rfl
  unfold UnpackedFloat.ofScientific
  split
  · rfl
  · split
    · rfl
    · split
      · rfl
      · split
        · exact isUnsigned_mul number number
        · exact isUnsigned_div number number

theorem unsigned_ofNat (n : Nat) : Unsigned (Quantity.ofNat n) := by
  show Unsigned (Float.ofScientific n false 0)
  unfold Float.ofScientific
  split
  · have word : Unsigned (UInt64.toFloat n.toUInt64) :=
      unsigned_pack (isUnsigned_normalize (Int.natCast_nonneg _) 0)
    have one : Unsigned (Float.ofBits 0x3ff0000000000000) := by rfl
    exact unsigned_mul word one
  · exact unsigned_pack (isUnsigned_ofScientific n 0)

theorem mantissa_lt {b : BitVec Format.binary64.numBits} {s : Sign} {m : Nat} {e : Int}
    {pos : 0 < m} (h : unpack .binary64 b = .finite s m e pos) : m < 2 ^ 53 := by
  have mantissa : (unpackMantissa b).toNat < 2 ^ 52 := (unpackMantissa b).isLt
  unfold unpack at h
  dsimp only at h
  split at h
  · split at h <;> cases h
  · split at h
    · split at h
      · cases h
      · cases h
        omega
    · cases h
      rw [toNat_implicit]
      omega

theorem isUnsigned_sub {m m' : Nat} {e e' : Int} {pos : 0 < m} {pos' : 0 < m'}
    (h : m' <<< (e' - min e e').toNat ≤ m <<< (e - min e e').toNat) :
    IsUnsigned (UnpackedFloat.sub .binary64 (.finite .positive m e pos)
      (.finite .positive m' e' pos')) :=
  isUnsigned_normalize (Int.sub_nonneg.mpr (Int.ofNat_le.mpr h)) _

/-- The double for one. -/
def one : UnpackedFloat := .finite .positive 4503599627370496 (-52) (by decide)

theorem isUnsigned_complement {u : UnpackedFloat} (sign : IsUnsigned u) (most : u.le one = true)
    (small : ∀ s m e pos, u = .finite s m e pos → m < 2 ^ 53) :
    IsUnsigned (UnpackedFloat.sub .binary64 one u) := by
  cases u with
  | notANumber => trivial
  | infinity =>
    cases sign
    cases most
  | zero =>
    cases sign
    trivial
  | finite s m e pos =>
    cases sign
    have small := small _ _ _ _ rfl
    have order : ((compare e (-52)).then (compare m 4503599627370496)).isLE = true := most
    refine isUnsigned_sub ?_
    rw [Nat.shiftLeft_eq, Nat.shiftLeft_eq]
    cases exponents : compare e (-52) with
    | lt =>
      have lower : e < -52 := Int.compare_eq_lt.mp exponents
      have kept : (e - min (-52) e).toNat = 0 := by omega
      have doubled : 1 ≤ (-52 - min (-52) e).toNat := by omega
      have power : 2 ^ 1 ≤ 2 ^ (-52 - min (-52) e).toNat :=
        Nat.pow_le_pow_right (by decide) doubled
      rw [kept]
      omega
    | eq =>
      obtain rfl : e = -52 := Int.compare_eq_eq.mp exponents
      rw [exponents, Ordering.eq_then, Nat.isLE_compare] at order
      exact Nat.mul_le_mul_right _ order
    | gt =>
      rw [exponents] at order
      cases order

theorem unsigned_complement (above : Quantity.ofNat 0 < a) (most : a ≤ Quantity.ofNat 1) :
    Unsigned (Quantity.ofNat 1 - a) :=
  unsigned_pack (isUnsigned_complement (unsigned_of_pos above) (of_decide_eq_true most)
    fun _ _ _ _ h => mantissa_lt h)

/-- **Without a minus sign, doubles that compare equal are the same.** -/
theorem eq_of_beq_unsigned (h : (a == b) = true) (ha : Unsigned a) (hb : Unsigned b) : a = b := by
  refine eq_of_unpack ?_
  rcases unpack_of_beq h with same | ⟨s, s', hs, hs'⟩
  · exact same
  · unfold Unsigned at ha hb
    rw [hs] at ha ⊢
    rw [hs'] at hb ⊢
    cases ha
    cases hb
    rfl

theorem eq_of_beq_pos (h : (a == b) = true) (above : Quantity.ofNat 0 < b) : a = b := by
  refine eq_of_unpack ?_
  rcases unpack_of_beq h with same | ⟨_, s', _, zero⟩
  · exact same
  · have order : UnpackedFloat.lt (.zero .positive) b.toModel.unpack = true := (lt_iff _ _).mp above
    rw [zero] at order
    cases order

end ReadAhead.Binary64
