import ReadAhead.Proofs.Numeric.Magnitude

/-!
  Numbers — which results are numbers, and which are finite

  What is no number is not equal to itself. It comes from no number, from infinities of
  opposite signs that are added, from a zero times an infinity, and from two zeros or
  two infinities divided by each other. Where the one operand cannot be of these, the
  other may be any number.

  What is proved:
    1. `IsNumber.beq_self` — numbers are equal to themselves.
    2. `isNumber_add_unsigned`, `isNumber_add_finite`, `isNumber_mul`,
       `isNumber_mul_finite`, `isNumber_div` — which results are numbers.
    3. `isPositive_sub`, `isFinite_sub` — a smaller number taken from a larger one leaves
       something that is finite and above zero; equals leave something finite.
    4. `stays_ofNat`, `stays_mul`, `stays_div`, `reaches_ofNat`, `reaches_div`,
       `reaches_add` — bounds of the highest bit, from above and from below.
-/

namespace ReadAhead.Binary64

open Float.Model (Format UnpackedFloat)
open Float.Model.UnpackedFloat

/-! ## Numbers -/

/-- A number, finite or infinite. -/
def IsNumber (x : Float) : Prop := x.toModel.unpack.isNaN = false

theorem isNumber_of_isFinite {x : Float} (h : x.isFinite = true) : IsNumber x := by
  have finite : x.toModel.unpack.isFinite = true := h
  unfold IsNumber
  cases unpacked : x.toModel.unpack with
  | notANumber =>
    rw [unpacked] at finite
    cases finite
  | infinity | zero | finite => rfl

theorem IsNumber.compare {a b : Float} (ha : IsNumber a) (hb : IsNumber b) :
    ∃ order, a.toModel.unpack.compare b.toModel.unpack = some order := by
  unfold IsNumber at ha hb
  generalize a.toModel.unpack = u at ha ⊢
  generalize b.toModel.unpack = v at hb ⊢
  cases u with
  | notANumber => cases ha
  | infinity s =>
    cases v with
    | notANumber => cases hb
    | infinity | zero | finite => cases s <;> exact ⟨_, rfl⟩
  | zero s =>
    cases v with
    | notANumber => cases hb
    | zero => exact ⟨_, rfl⟩
    | infinity s' | finite s' => cases s' <;> exact ⟨_, rfl⟩
  | finite s =>
    cases v with
    | notANumber => cases hb
    | zero => cases s <;> exact ⟨_, rfl⟩
    | infinity s' | finite s' => cases s <;> cases s' <;> exact ⟨_, rfl⟩

theorem IsNumber.beq_self {x : Float} (h : IsNumber x) : (x == x) = true := by
  obtain ⟨order, compared⟩ := h.compare h
  have swapped := compare_swap x.toModel.unpack x.toModel.unpack
  rw [compared, Option.map_some, Option.some.injEq] at swapped
  show (x.toModel.unpack.compare x.toModel.unpack == some .eq) = true
  rw [compared]
  cases order with
  | eq => rfl
  | lt | gt => cases swapped

theorem le_iff (a b : Float) :
    a ≤ b ↔ (a.toModel.unpack.compare b.toModel.unpack).any (·.isLE) = true :=
  decide_eq_true_iff

theorem IsNumber.le_of_not_lt {a b : Float} (ha : IsNumber a) (hb : IsNumber b) (h : ¬ a < b) :
    b ≤ a := by
  obtain ⟨order, compared⟩ := ha.compare hb
  rw [lt_iff, UnpackedFloat.lt, compared] at h
  rw [le_iff, compare_swap, compared]
  cases order with
  | lt => exact absurd rfl h
  | eq | gt => rfl

theorem IsNumber.lt_of_not_le {a b : Float} (ha : IsNumber a) (hb : IsNumber b) (h : ¬ a ≤ b) :
    b < a := by
  obtain ⟨order, compared⟩ := ha.compare hb
  rw [le_iff, compared] at h
  rw [lt_iff, UnpackedFloat.lt, compare_swap, compared]
  cases order with
  | lt | eq => exact absurd rfl h
  | gt => rfl

theorem lt_or_beq_of_le {a b : Float} (h : a ≤ b) : a < b ∨ (a == b) = true := by
  rw [le_iff] at h
  rw [lt_iff]
  show (a.toModel.unpack.compare b.toModel.unpack == some .lt) = true ∨
    (a.toModel.unpack.compare b.toModel.unpack == some .eq) = true
  cases compared : a.toModel.unpack.compare b.toModel.unpack with
  | none =>
    rw [compared] at h
    cases h
  | some order =>
    rw [compared] at h
    cases order with
    | lt => exact .inl rfl
    | eq => exact .inr rfl
    | gt => cases h

theorem isNumber_of_pos {a : Float} (h : Quantity.ofNat 0 < a) : IsNumber a := by
  have above : UnpackedFloat.lt (.zero .positive) a.toModel.unpack = true := (lt_iff _ _).mp h
  unfold IsNumber
  cases unpacked : a.toModel.unpack with
  | notANumber =>
    rw [unpacked] at above
    cases above
  | infinity | zero | finite => rfl

/-! ## Finite numbers -/

theorem unpack_of_isFinite {a : Float} (h : a.isFinite = true) :
    (∃ s, a.toModel.unpack = .zero s) ∨
      ∃ s m e pos, Canonical m e ∧ a.toModel.unpack = .finite s m e pos := by
  have finite : a.toModel.unpack.isFinite = true := h
  cases unpacked : a.toModel.unpack with
  | notANumber | infinity =>
    rw [unpacked] at finite
    cases finite
  | zero s => exact .inl ⟨s, rfl⟩
  | finite s m e pos => exact .inr ⟨s, m, e, pos, canonical_unpack unpacked, rfl⟩

theorem unpack_of_isPositive {a : Float} (h : Quantity.isPositive a = true) :
    ∃ m e pos, Canonical m e ∧ a.toModel.unpack = .finite .positive m e pos := by
  rw [Quantity.isPositive, Bool.and_eq_true, decide_eq_true_eq] at h
  have sign : IsUnsigned a.toModel.unpack := unsigned_of_pos h.2
  have above : UnpackedFloat.lt (.zero .positive) a.toModel.unpack = true := (lt_iff _ _).mp h.2
  rcases unpack_of_isFinite h.1 with ⟨s, unpacked⟩ | ⟨s, m, e, pos, canonical, unpacked⟩
  · rw [unpacked] at above
    cases above
  · rw [unpacked] at sign
    cases sign
    exact ⟨m, e, pos, canonical, unpacked⟩

theorem isFinite_of_isPositive {a : Float} (h : Quantity.isPositive a = true) :
    a.isFinite = true := by
  rw [Quantity.isPositive, Bool.and_eq_true] at h
  exact h.1

theorem not_lt_zero_of_isPositive {a : Float} (h : Quantity.isPositive a = true) :
    ¬ a < Quantity.ofNat 0 := by
  obtain ⟨_, _, _, _, unpacked⟩ := unpack_of_isPositive h
  rw [lt_iff, unpacked]
  exact Bool.false_ne_true

theorem isPositive_of_unpack {a : Float} {m : Nat} {e : Int} {pos : 0 < m}
    (h : a.toModel.unpack = .finite .positive m e pos) : Quantity.isPositive a = true := by
  rw [Quantity.isPositive, Bool.and_eq_true, decide_eq_true_eq]
  constructor
  · show a.toModel.unpack.isFinite = true
    rw [h]
    rfl
  · rw [lt_iff, h]
    rfl

/-! ## Which results are numbers -/

theorem Outcome.isNumber {s : Sign} {place : Int} {u : UnpackedFloat} (h : Outcome s place u) :
    u.isNaN = false := by
  cases h <;> rfl

theorem repack_unpack (x : Float) : repack x.toModel.unpack = x.toModel.unpack :=
  congrArg (unpack .binary64) (pack_unpack x.toModel.valid)

theorem isNaN_infinity (s : Sign) : (repack (.infinity s)).isNaN = false := by
  cases s <;> rfl

theorem isNaN_zero (s : Sign) : (repack (.zero s)).isNaN = false := by
  cases s <;> rfl

theorem isNaN_normalize (m e : Int) (s : Sign) :
    (repack (UnpackedFloat.normalize .binary64 m e s)).isNaN = false := by
  unfold UnpackedFloat.normalize
  split
  · next below =>
    have pos : 0 < (-m).toNat := by
      rw [Int.compare_eq_lt] at below
      omega
    exact (outcome_of_round .negative pos e).isNumber
  · exact isNaN_zero s
  · next above =>
    have pos : 0 < m.toNat := by
      rw [Int.compare_eq_gt] at above
      omega
    exact (outcome_of_round .positive pos e).isNumber

variable {a b : Float}

theorem isNumber_add (ha : IsNumber a) (hb : IsNumber b)
    (alike : ∀ s s', a.toModel.unpack = .infinity s → b.toModel.unpack = .infinity s' → s = s') :
    IsNumber (a + b) := by
  show (repack (UnpackedFloat.add .binary64 a.toModel.unpack b.toModel.unpack)).isNaN = false
  have kept_a := repack_unpack a
  have kept_b := repack_unpack b
  unfold IsNumber at ha hb
  generalize a.toModel.unpack = u at *
  generalize b.toModel.unpack = v at *
  cases u with
  | notANumber => cases ha
  | infinity s =>
    cases v with
    | notANumber => cases hb
    | infinity s' =>
      obtain rfl := alike s s' rfl rfl
      cases s <;> rfl
    | zero | finite => exact isNaN_infinity s
  | zero s =>
    cases v with
    | notANumber => cases hb
    | zero s' => cases s <;> cases s' <;> rfl
    | infinity s' => exact isNaN_infinity s'
    | finite =>
      show (repack (.finite ..)).isNaN = false
      rw [kept_b]
      rfl
  | finite =>
    cases v with
    | notANumber => cases hb
    | infinity s' => exact isNaN_infinity s'
    | zero =>
      show (repack (.finite ..)).isNaN = false
      rw [kept_a]
      rfl
    | finite => exact isNaN_normalize ..

theorem isNumber_add_unsigned (ha : IsNumber a) (hb : IsNumber b) (sign_a : Unsigned a)
    (sign_b : Unsigned b) : IsNumber (a + b) := by
  refine isNumber_add ha hb fun s s' infinite infinite' => ?_
  unfold Unsigned at sign_a sign_b
  rw [infinite] at sign_a
  rw [infinite'] at sign_b
  cases sign_a
  cases sign_b
  rfl

theorem isNumber_add_finite (finite : a.isFinite = true) (hb : IsNumber b) : IsNumber (a + b) := by
  refine isNumber_add (isNumber_of_isFinite finite) hb fun s _ infinite _ => ?_
  have finite : a.toModel.unpack.isFinite = true := finite
  rw [infinite] at finite
  cases finite

theorem isNumber_mul (ha : Quantity.isPositive a = true) (hb : IsNumber b) : IsNumber (a * b) := by
  obtain ⟨m, e, pos, canonical, unpacked⟩ := unpack_of_isPositive ha
  show (repack (UnpackedFloat.mul .binary64 a.toModel.unpack b.toModel.unpack)).isNaN = false
  unfold IsNumber at hb
  rw [unpacked]
  cases unpacked_b : b.toModel.unpack with
  | notANumber =>
    rw [unpacked_b] at hb
    cases hb
  | infinity => exact isNaN_infinity _
  | zero => exact isNaN_zero _
  | finite s m' e' pos' =>
    obtain ⟨_, _, _, outcome⟩ :=
      outcome_mul canonical (canonical_unpack unpacked_b) pos pos' .positive s
    exact outcome.isNumber

theorem isNumber_mul_finite (ha : a.isFinite = true) (hb : b.isFinite = true) :
    IsNumber (a * b) := by
  show (repack (UnpackedFloat.mul .binary64 a.toModel.unpack b.toModel.unpack)).isNaN = false
  rcases unpack_of_isFinite ha with ⟨s, zero⟩ | ⟨s, m, e, pos, canonical, unpacked⟩
  · rw [zero]
    rcases unpack_of_isFinite hb with ⟨s', zero'⟩ | ⟨s', m', e', pos', _, unpacked'⟩
    · rw [zero']
      exact isNaN_zero _
    · rw [unpacked']
      exact isNaN_zero _
  · rw [unpacked]
    rcases unpack_of_isFinite hb with ⟨s', zero'⟩ | ⟨s', m', e', pos', canonical', unpacked'⟩
    · rw [zero']
      exact isNaN_zero _
    · rw [unpacked']
      obtain ⟨_, _, _, outcome⟩ := outcome_mul canonical canonical' pos pos' s s'
      exact outcome.isNumber

theorem isNumber_div (ha : IsNumber a) (hb : Quantity.isPositive b = true) : IsNumber (a / b) := by
  obtain ⟨m, e, pos, canonical, unpacked⟩ := unpack_of_isPositive hb
  show (repack (UnpackedFloat.div .binary64 a.toModel.unpack b.toModel.unpack)).isNaN = false
  unfold IsNumber at ha
  rw [unpacked]
  cases unpacked_a : a.toModel.unpack with
  | notANumber =>
    rw [unpacked_a] at ha
    cases ha
  | infinity => exact isNaN_infinity _
  | zero => exact isNaN_zero _
  | finite s m' e' pos' =>
    obtain ⟨_, _, _, outcome⟩ := outcome_div e' e pos' pos s .positive
    exact outcome.isNumber
/-! ## Differences -/

theorem unpack_of_nonneg (ha : a.isFinite = true) (nonneg : ¬ a < Quantity.ofNat 0) :
    (∃ s, a.toModel.unpack = .zero s) ∨
      ∃ m e pos, a.toModel.unpack = .finite .positive m e pos := by
  rcases unpack_of_isFinite ha with zero | ⟨s, m, e, pos, _, unpacked⟩
  · exact .inl zero
  · cases s with
    | positive => exact .inr ⟨m, e, pos, unpacked⟩
    | negative =>
      rw [lt_iff, unpacked] at nonneg
      exact absurd rfl nonneg

theorem positive_of_lt {u v : UnpackedFloat} (finite : u.isFinite = true)
    (nonneg : (∃ s, v = .zero s) ∨ ∃ m e pos, v = .finite .positive m e pos)
    (less : v.lt u = true) : ∃ m e pos, u = .finite .positive m e pos := by
  cases u with
  | notANumber | infinity => cases finite
  | zero => rcases nonneg with ⟨s, rfl⟩ | ⟨m, e, pos, rfl⟩ <;> cases less
  | finite s m e pos =>
    cases s with
    | positive => exact ⟨m, e, pos, rfl⟩
    | negative => rcases nonneg with ⟨s, rfl⟩ | ⟨m, e, pos, rfl⟩ <;> cases less

theorem isPositive_sub (ha : a.isFinite = true) (hb : b.isFinite = true)
    (nonneg : ¬ b < Quantity.ofNat 0) (less : b < a) : Quantity.isPositive (a - b) = true := by
  have nonneg := unpack_of_nonneg hb nonneg
  rw [lt_iff] at less
  obtain ⟨m, e, pos, unpacked⟩ := positive_of_lt ha nonneg less
  have kept := repack_unpack a
  have result : (a - b).toModel.unpack
    = repack (UnpackedFloat.sub .binary64 a.toModel.unpack b.toModel.unpack) := rfl
  rw [unpacked] at kept less result
  rcases nonneg with ⟨s, unpacked'⟩ | ⟨m', e', pos', unpacked'⟩
  · rw [unpacked'] at result
    exact isPositive_of_unpack (result.trans kept)
  · rw [unpacked'] at less result
    obtain ⟨_, _, _, packed⟩ := repack_sub pos pos' (canonical_unpack unpacked)
      (canonical_unpack unpacked') (Option.some.inj (eq_of_beq less))
    exact isPositive_of_unpack (result.trans packed)

theorem sub_equal {u v : UnpackedFloat} (finite : u.isFinite = true)
    (same : u = v ∨ ∃ s s', u = .zero s ∧ v = .zero s') :
    ∃ s, UnpackedFloat.sub .binary64 u v = .zero s := by
  rcases same with rfl | ⟨s, s', rfl, rfl⟩
  · cases u with
    | notANumber | infinity => cases finite
    | zero s => cases s <;> exact ⟨_, rfl⟩
    | finite s m e =>
      refine ⟨.positive, ?_⟩
      unfold UnpackedFloat.sub
      dsimp only
      rw [Int.sub_self]
      rfl
  · cases s <;> cases s' <;> exact ⟨_, rfl⟩

theorem isFinite_sub (ha : a.isFinite = true) (hb : b.isFinite = true)
    (nonneg : ¬ b < Quantity.ofNat 0) (le : b ≤ a) : (a - b).isFinite = true := by
  rcases lt_or_beq_of_le le with less | equal
  · exact isFinite_of_isPositive (isPositive_sub ha hb nonneg less)
  · have same : a.toModel.unpack = b.toModel.unpack ∨
        ∃ s s', a.toModel.unpack = .zero s ∧ b.toModel.unpack = .zero s' :=
      (unpack_of_beq equal).imp Eq.symm fun ⟨s, s', hb, ha⟩ => ⟨s', s, ha, hb⟩
    obtain ⟨s, unpacked⟩ := sub_equal ha same
    show (repack (UnpackedFloat.sub .binary64 a.toModel.unpack b.toModel.unpack)).isFinite = true
    rw [unpacked, repack_zero]
    rfl
/-! ## How far up the highest bit is -/

/-- Above zero, with the highest bit at a place or further up. -/
inductive AtLeast (k : Int) : UnpackedFloat → Prop where
  | finite {m : Nat} {e : Int} (pos : 0 < m) (least : k ≤ top m e) :
      AtLeast k (.finite .positive m e pos)
  | infinity : AtLeast k (.infinity .positive)

/-- Finite, with the highest bit at a place or further down. -/
inductive AtMost (k : Int) : UnpackedFloat → Prop where
  | zero (s : Sign) : AtMost k (.zero s)
  | finite (s : Sign) {m : Nat} {e : Int} (pos : 0 < m) (most : top m e ≤ k) :
      AtMost k (.finite s m e pos)

theorem Outcome.atLeast {place k : Int} {u : UnpackedFloat} (h : Outcome .positive place u)
    (normal : -1074 < k) (le : k ≤ place) : AtLeast k u := by
  cases h with
  | zero low => omega
  | finite pos _ least _ => exact .finite pos (by omega)
  | infinity => exact .infinity

theorem Outcome.atMost {s : Sign} {place k : Int} {u : UnpackedFloat} (h : Outcome s place u)
    (le : place + 1 ≤ k) (low : -1074 ≤ k) (high : k ≤ 1023) : AtMost k u := by
  cases h with
  | zero => exact .zero s
  | finite pos _ _ most => exact .finite s pos (by omega)
  | infinity large => omega

/-- At least two to a power, roughly. -/
def Reaches (k : Int) (x : Float) : Prop := AtLeast k x.toModel.unpack

/-- At most two to a power, roughly. -/
def Stays (k : Int) (x : Float) : Prop := AtMost k x.toModel.unpack

theorem Stays.isFinite {k : Int} {x : Float} (h : Stays k x) : x.isFinite = true := by
  show x.toModel.unpack.isFinite = true
  unfold Stays at h
  cases unpacked : x.toModel.unpack with
  | zero | finite => rfl
  | notANumber | infinity =>
    rw [unpacked] at h
    cases h
theorem isNumber_ofNat (n : Nat) : IsNumber (Quantity.ofNat n) := by
  rcases Nat.eq_zero_or_pos n with rfl | pos
  · rfl
  · obtain ⟨_, _, _, outcome⟩ := outcome_ofNat pos
    exact outcome.isNumber

variable {j k : Int}

theorem reaches_ofNat {n : Nat} (pos : 0 < n) : Reaches 0 (Quantity.ofNat n) := by
  obtain ⟨place, least, _, outcome⟩ := outcome_ofNat pos
  exact outcome.atLeast (by decide) (by omega)

theorem stays_ofNat {n k : Nat} (less : n < 2 ^ k) (high : k ≤ 1000) :
    Stays (k + 2) (Quantity.ofNat n) := by
  rcases Nat.eq_zero_or_pos n with rfl | pos
  · exact .zero .positive
  · obtain ⟨place, _, most, outcome⟩ := outcome_ofNat pos
    have bits := (Nat.log2_lt (Nat.ne_of_gt pos)).mpr less
    exact outcome.atMost (by omega) (by omega) (by omega)

theorem unpack_of_stays (h : Stays k a) :
    (∃ s, a.toModel.unpack = .zero s) ∨
      ∃ s m e pos, Canonical m e ∧ top m e ≤ k ∧ a.toModel.unpack = .finite s m e pos := by
  rcases unpack_of_isFinite h.isFinite with zero | ⟨s, m, e, pos, canonical, unpacked⟩
  · exact .inl zero
  · unfold Stays at h
    rw [unpacked] at h
    cases h with | finite _ _ most =>
    exact .inr ⟨s, m, e, pos, canonical, most, unpacked⟩

theorem unpack_of_reaches (h : Reaches k a) :
    a.toModel.unpack = .infinity .positive ∨
      ∃ m e pos, k ≤ top m e ∧ a.toModel.unpack = .finite .positive m e pos := by
  unfold Reaches at h
  cases unpacked : a.toModel.unpack with
  | notANumber | zero =>
    rw [unpacked] at h
    cases h
  | infinity s =>
    rw [unpacked] at h
    cases h
    exact .inl rfl
  | finite s m e pos =>
    rw [unpacked] at h
    cases h with | finite _ least =>
    exact .inr ⟨m, e, pos, least, rfl⟩

theorem Reaches.mono (h : Reaches k a) (le : j ≤ k) : Reaches j a := by
  unfold Reaches
  rcases unpack_of_reaches h with infinite | ⟨m, e, pos, least, unpacked⟩
  · rw [infinite]
    exact .infinity
  · rw [unpacked]
    exact .finite pos (Int.le_trans le least)

theorem atMost_zero (s : Sign) : AtMost k (repack (.zero s)) := by
  rw [repack_zero]
  exact .zero s

theorem stays_mul (ha : Stays j a) (hb : Stays k b) (low : -1074 ≤ j + k) (high : j + k ≤ 1021) :
    Stays (j + k + 2) (a * b) := by
  show AtMost _ (repack (UnpackedFloat.mul .binary64 a.toModel.unpack b.toModel.unpack))
  rcases unpack_of_stays ha with ⟨s, zero⟩ | ⟨s, m, e, pos, canonical, most, unpacked⟩
  · rw [zero]
    rcases unpack_of_stays hb with ⟨s', zero'⟩ | ⟨s', m', e', pos', _, _, unpacked'⟩
    · rw [zero']
      exact atMost_zero _
    · rw [unpacked']
      exact atMost_zero _
  · rw [unpacked]
    rcases unpack_of_stays hb with ⟨s', zero'⟩ | ⟨s', m', e', pos', canonical', most', unpacked'⟩
    · rw [zero']
      exact atMost_zero _
    · rw [unpacked']
      obtain ⟨_, _, upper, outcome⟩ := outcome_mul canonical canonical' pos pos' s s'
      exact outcome.atMost (by omega) (by omega) (by omega)

theorem stays_div (ha : Stays j a) (hb : Reaches k b) (low : -1074 ≤ j - k)
    (high : j - k ≤ 1022) : Stays (j - k + 1) (a / b) := by
  show AtMost _ (repack (UnpackedFloat.div .binary64 a.toModel.unpack b.toModel.unpack))
  rcases unpack_of_stays ha with ⟨s, zero⟩ | ⟨s, m, e, pos, _, most, unpacked⟩
  · rw [zero]
    rcases unpack_of_reaches hb with infinite | ⟨m', e', pos', _, unpacked'⟩
    · rw [infinite]
      exact atMost_zero _
    · rw [unpacked']
      exact atMost_zero _
  · rw [unpacked]
    rcases unpack_of_reaches hb with infinite | ⟨m', e', pos', least, unpacked'⟩
    · rw [infinite]
      exact atMost_zero _
    · rw [unpacked']
      obtain ⟨_, _, upper, outcome⟩ := outcome_div e e' pos pos' s .positive
      exact outcome.atMost (by omega) (by omega) (by omega)

theorem unpack_of_between (least : Reaches j a) (most : Stays k a) :
    ∃ m e pos, top m e ≤ k ∧ a.toModel.unpack = .finite .positive m e pos := by
  rcases unpack_of_reaches least with infinite | ⟨m, e, pos, _, unpacked⟩
  · unfold Stays at most
    rw [infinite] at most
    cases most
  · unfold Stays at most
    rw [unpacked] at most
    cases most with | finite _ _ most =>
    exact ⟨m, e, pos, most, unpacked⟩

theorem reaches_div (ha : Reaches j a) {i : Int} (hb : Reaches i b) (most : Stays k b)
    (normal : -1074 < j - k - 1) : Reaches (j - k - 1) (a / b) := by
  show AtLeast _ (repack (UnpackedFloat.div .binary64 a.toModel.unpack b.toModel.unpack))
  obtain ⟨m', e', pos', most, unpacked'⟩ := unpack_of_between hb most
  rw [unpacked']
  rcases unpack_of_reaches ha with infinite | ⟨m, e, pos, least, unpacked⟩
  · rw [infinite]
    show AtLeast _ (repack (.infinity .positive))
    exact .infinity
  · rw [unpacked]
    obtain ⟨_, lower, _, outcome⟩ :=
      outcome_div e e' pos pos' .positive .positive
    exact outcome.atLeast normal (by omega)

theorem reaches_add (ha : Reaches k a) (hb : IsNumber b) (sign : Unsigned b) (normal : -1074 < k) :
    Reaches k (a + b) := by
  have kept := repack_unpack a
  have least := ha
  show AtLeast _ (repack (UnpackedFloat.add .binary64 a.toModel.unpack b.toModel.unpack))
  unfold Reaches at least
  unfold IsNumber at hb
  unfold Unsigned at sign
  generalize b.toModel.unpack = v at hb sign ⊢
  rcases unpack_of_reaches ha with infinite | ⟨m, e, pos, place, unpacked⟩
  · rw [infinite]
    cases v with
    | notANumber => cases hb
    | infinity | zero | finite =>
      cases sign
      show AtLeast _ (repack (.infinity .positive))
      exact .infinity
  · rw [unpacked] at least kept ⊢
    cases v with
    | notANumber => cases hb
    | infinity =>
      cases sign
      show AtLeast _ (repack (.infinity .positive))
      exact .infinity
    | zero =>
      show AtLeast _ (repack (.finite ..))
      rw [kept]
      exact least
    | finite s m' e' pos' =>
      cases sign
      obtain ⟨_, lower, outcome⟩ := outcome_add pos pos'
      exact outcome.atLeast normal (by omega)

theorem reaches_zero_add (hb : Reaches k b) : Reaches k (Quantity.ofNat 0 + b) := by
  have kept := repack_unpack b
  have least := hb
  show AtLeast _ (repack (UnpackedFloat.add .binary64 (.zero .positive) b.toModel.unpack))
  unfold Reaches at least
  rcases unpack_of_reaches hb with infinite | ⟨m, e, pos, place, unpacked⟩
  · rw [infinite] at least kept ⊢
    show AtLeast _ (repack (.infinity .positive))
    rwa [kept]
  · rw [unpacked] at least kept ⊢
    show AtLeast _ (repack (.finite ..))
    rwa [kept]

theorem isPositive_ofNat {n k : Nat} (pos : 0 < n) (less : n < 2 ^ k) (high : k ≤ 1000) :
    Quantity.isPositive (Quantity.ofNat n : Float) = true := by
  obtain ⟨_, _, _, _, unpacked⟩ := unpack_of_between (reaches_ofNat pos) (stays_ofNat less high)
  exact isPositive_of_unpack unpacked

theorem isFinite_add_zero (ha : a.isFinite = true) {s : Sign} (hb : b.toModel.unpack = .zero s) :
    (a + b).isFinite = true := by
  have kept := repack_unpack a
  show (repack (UnpackedFloat.add .binary64 a.toModel.unpack b.toModel.unpack)).isFinite = true
  rw [hb]
  rcases unpack_of_isFinite ha with ⟨s', zero⟩ | ⟨s', m, e, pos, _, unpacked⟩
  · rw [zero]
    cases s <;> cases s' <;> rfl
  · rw [unpacked] at kept ⊢
    show (repack (.finite ..)).isFinite = true
    rw [kept]
    rfl

theorem zero_mul_finite (ha : a.isFinite = true) :
    ∃ s, (Quantity.ofNat 0 * a).toModel.unpack = .zero s := by
  show ∃ s, repack (UnpackedFloat.mul .binary64 (.zero .positive) a.toModel.unpack) = .zero s
  rcases unpack_of_isFinite ha with ⟨s, zero⟩ | ⟨s, m, e, pos, _, unpacked⟩
  · rw [zero]
    exact ⟨_, repack_zero _⟩
  · rw [unpacked]
    exact ⟨_, repack_zero _⟩
end ReadAhead.Binary64
