import ReadAhead.Proofs.Numeric.Rounding

/-!
  Magnitude — where the highest bits of results are

  The highest bit of a product is where those of the factors add up to, or one place
  further up; that of a quotient is where they differ by, or one place further down. A
  difference has no such bounds. But what is less than a double, and not below all
  places, is rounded to a double, and so is the difference of one and a smaller one.

  What is proved:
    1. `outcome_mul`, `outcome_div`, `outcome_add` — where the highest bits of products,
       quotients and sums are.
    2. `round_below`, `repack_sub` — what is less than a double is rounded to one, and
       of two doubles the smaller can be taken from the larger one without a loss of
       all bits.
    3. `unpack_ofNat_cases`, `outcome_ofNat` — how a natural number is made a double, and
       where its highest bit is.
-/

namespace ReadAhead.Binary64

open Float.Model (Format UnpackedFloat totalExponent)
open Float.Model.UnpackedFloat

/-! ## Highest bits -/

theorem log2_mono {m n : Nat} (le : m ≤ n) : m.log2 ≤ n.log2 := by
  rw [Nat.log2_eq_log_two, Nat.log2_eq_log_two]
  exact Nat.log_mono_right le

theorem log2_shiftLeft {m : Nat} (pos : 0 < m) (n : Nat) : (m <<< n).log2 = m.log2 + n := by
  have back : m <<< n / 2 ^ n = m := by
    rw [Nat.shiftLeft_eq, Nat.mul_div_cancel _ (Nat.two_pow_pos n)]
  have bits := log2_div_two_pow (m := m <<< n) (n := n) (by rwa [back])
  rw [← bits, back]

theorem top_shiftLeft {m : Nat} (pos : 0 < m) (n : Nat) (e : Int) :
    top (m <<< n) (e - n) = top m e := by
  unfold top
  rw [log2_shiftLeft pos]
  omega

theorem log2_mul_bounds {m n : Nat} (m_pos : 0 < m) (n_pos : 0 < n) :
    m.log2 + n.log2 ≤ (m * n).log2 ∧ (m * n).log2 ≤ m.log2 + n.log2 + 1 := by
  have nonzero : m * n ≠ 0 := Nat.ne_of_gt (Nat.mul_pos m_pos n_pos)
  constructor
  · rw [Nat.le_log2 nonzero, Nat.pow_add]
    exact Nat.mul_le_mul (Nat.log2_self_le (Nat.ne_of_gt m_pos))
      (Nat.log2_self_le (Nat.ne_of_gt n_pos))
  · rw [← Nat.lt_succ_iff, Nat.log2_lt nonzero]
    calc m * n
      _ < 2 ^ (m.log2 + 1) * 2 ^ (n.log2 + 1) := Nat.mul_lt_mul'' Nat.lt_log2_self Nat.lt_log2_self
      _ = 2 ^ (m.log2 + n.log2 + 1 + 1) := by rw [← Nat.pow_add]; congr 1; omega

theorem log2_div_bounds {m n : Nat} (n_pos : 0 < n) (pos : 0 < m / n) :
    m.log2 ≤ (m / n).log2 + n.log2 + 1 ∧ (m / n).log2 + n.log2 ≤ m.log2 := by
  have bounds := log2_mul_bounds pos n_pos
  constructor
  · have m_pos : m ≠ 0 := fun zero => by rw [zero, Nat.zero_div] at pos; omega
    rw [← Nat.lt_succ_iff, Nat.log2_lt m_pos]
    calc m
      _ < (m / n + 1) * n := by rw [Nat.add_one_mul]; exact Nat.lt_div_mul_add n_pos
      _ ≤ 2 ^ ((m / n).log2 + 1) * 2 ^ (n.log2 + 1) :=
        Nat.mul_le_mul Nat.lt_log2_self (Nat.le_of_lt Nat.lt_log2_self)
      _ = 2 ^ ((m / n).log2 + n.log2 + 1 + 1) := by rw [← Nat.pow_add]; congr 1; omega
  · exact Nat.le_trans bounds.1 (log2_mono (Nat.div_mul_le_self m n))

/-- A mantissa with enough bits, or at the lowest place, has no room to spare. -/
theorem le_lastPlace {m : Nat} {e : Int} (whole : e ≤ -1074 ∨ 52 ≤ m.log2) :
    e ≤ lastPlace (top m e) := by
  unfold lastPlace top
  omega

theorem lastPlace_mono {t t' : Int} (le : t ≤ t') : lastPlace t ≤ lastPlace t' := by
  unfold lastPlace
  omega

/-! ## Outcomes of the operations -/

theorem Canonical.long {m : Nat} {e : Int} (c : Canonical m e) : e = -1074 ∨ 52 ≤ m.log2 := by
  rcases c.whole with lowest | whole
  · exact .inl lowest
  · exact .inr ((Nat.le_log2 (by omega)).mpr whole)

theorem round_eq (s : Sign) {m : Nat} {e : Int} :
    ∃ n : Nat, e - n ≤ lastPlace (top m e) ∧ (-1074 ≤ e → -1074 ≤ e - n) ∧
      UnpackedFloat.round .binary64 s m e
        = roundWithAccuracy .binary64 s (m <<< n) (e - n) .exact := by
  unfold UnpackedFloat.round decreaseExponent
  rw [targetExponent_eq]
  have low : -1074 ≤ lastPlace (top m e) := Int.le_max_right _ _
  refine ⟨(e - lastPlace (top m e)).toNat, ?_, ?_, rfl⟩ <;> omega

theorem outcome_of_round (s : Sign) {m : Nat} (pos : 0 < m) (e : Int) :
    Outcome s (top m e) (repack (UnpackedFloat.round .binary64 s m e)) := by
  obtain ⟨n, le, _, rounded⟩ := round_eq s
  rw [rounded, ← top_shiftLeft pos n]
  exact outcome_round s .exact (by rwa [top_shiftLeft pos])

/-- What is less than a double and not below all places is rounded to a double: if it
has the same last place, the mantissa that is kept is less than the one of the double,
so there is room for a carry. -/
theorem roundWithAccuracy_below (s : Sign) {m m' : Nat} {e e' : Int} (acc : Accuracy)
    (pos : 0 < m) (low : -1074 ≤ e) (le : e ≤ lastPlace (top m e)) (c : Canonical m' e')
    (below : e ≤ e') (less : m < m' <<< (e' - e).toNat) :
    ∃ q p pos, repack (roundWithAccuracy .binary64 s m e acc) = .finite s q p pos := by
  obtain ⟨q, least, most, fits, rounded⟩ := roundWithAccuracy_eq s m e acc le
  have whole := kept_whole le
  have last : -1074 ≤ lastPlace (top m e) := Int.le_max_right _ _
  have place : lastPlace (top m e) ≤ e' := by
    have pos' : 0 < m' := by
      rcases Nat.eq_zero_or_pos m' with rfl | pos'
      · rw [Nat.zero_shiftLeft] at less
        omega
      · exact pos'
    have highest : top m e ≤ top m' e' := by
      rw [← top_shiftLeft pos' (e' - e).toNat]
      have bits := log2_mono (Nat.le_of_lt less)
      unfold top
      omega
    exact c.lastPlace_eq ▸ lastPlace_mono highest
  have kept : 0 < m / 2 ^ (lastPlace (top m e) - e).toNat := by
    rcases whole with lowest | whole
    · have no_shift : (lastPlace (top m e) - e).toNat = 0 := by omega
      rwa [no_shift, Nat.pow_zero, Nat.div_one]
    · omega
  have carried : lastPlace (top m e) = e' → q < 2 ^ 53 := by
    intro same
    have fewer : m / 2 ^ (lastPlace (top m e) - e).toNat < m' := by
      rw [same, Nat.div_lt_iff_lt_mul (Nat.two_pow_pos _), ← Nat.shiftLeft_eq]
      exact less
    have small := c.small
    omega
  have high := c.high
  rw [rounded]
  obtain ⟨q', p', pos', _, _, packed⟩ :=
    repack_settle s (q := q) (by omega) fits last (by omega) (by omega)
  exact ⟨q', p', pos', packed⟩

theorem round_below (s : Sign) {m m' : Nat} {e e' : Int} (pos : 0 < m) (low : -1074 ≤ e)
    (c : Canonical m' e') (below : e ≤ e') (less : m < m' <<< (e' - e).toNat) :
    ∃ q p pos, repack (UnpackedFloat.round .binary64 s m e) = .finite s q p pos := by
  obtain ⟨n, le, still, rounded⟩ := round_eq s (m := m) (e := e)
  rw [rounded]
  refine roundWithAccuracy_below s .exact (Nat.shiftLeft_pos_iff.mpr pos) (still low) ?_ c
    (by omega) ?_
  · rwa [top_shiftLeft pos]
  · have amount : (e' - (e - n)).toNat = (e' - e).toNat + n := by omega
    rw [amount, Nat.shiftLeft_add, Nat.shiftLeft_eq m, Nat.shiftLeft_eq _ n]
    exact Nat.mul_lt_mul_of_pos_right less (Nat.two_pow_pos n)

section Finite

variable {m₁ m₂ : Nat} {e₁ e₂ : Int} (c₁ : Canonical m₁ e₁) (c₂ : Canonical m₂ e₂) (pos₁ : 0 < m₁)
  (pos₂ : 0 < m₂)

include c₁ c₂ in
theorem outcome_mul (s₁ s₂ : Sign) :
    ∃ place, top m₁ e₁ + top m₂ e₂ ≤ place ∧ place ≤ top m₁ e₁ + top m₂ e₂ + 1 ∧
      Outcome (s₁ * s₂) place (repack (UnpackedFloat.mul .binary64 (.finite s₁ m₁ e₁ pos₁)
        (.finite s₂ m₂ e₂ pos₂))) := by
  obtain ⟨least, most⟩ := log2_mul_bounds pos₁ pos₂
  refine ⟨top (m₁ * m₂) (e₁ + e₂), ?_, ?_, outcome_round _ .exact (le_lastPlace ?_)⟩
  · unfold top
    omega
  · unfold top
    omega
  · have low₁ := c₁.low
    have low₂ := c₂.low
    have long₁ := c₁.long
    have long₂ := c₂.long
    omega

variable (e₁ e₂) in
theorem outcome_div (s₁ s₂ : Sign) :
    ∃ place, top m₁ e₁ - top m₂ e₂ - 1 ≤ place ∧ place ≤ max (top m₁ e₁ - top m₂ e₂) (-1074) ∧
      Outcome (s₁ / s₂) place (repack (UnpackedFloat.div .binary64 (.finite s₁ m₁ e₁ pos₁)
        (.finite s₂ m₂ e₂ pos₂))) := by
  have total : Format.binary64.targetExponent (totalExponent m₁ e₁ - totalExponent m₂ e₂)
      = lastPlace (top m₁ e₁ - top m₂ e₂ - 1) := by
    show max ((m₁.log2 : Int) + 1 + e₁ - (m₂.log2 + 1 + e₂) - 53) (-1074)
      = max (m₁.log2 + e₁ - (m₂.log2 + e₂) - 1 - 52) (-1074)
    congr 1
    omega
  unfold UnpackedFloat.div divCore
  dsimp only
  rw [total]
  generalize place : min (e₁ - e₂) (lastPlace (top m₁ e₁ - top m₂ e₂ - 1)) = p
  generalize shift : (e₁ - e₂ - p).toNat = n
  have bits := log2_shiftLeft pos₁ n
  have bounds : top m₁ e₁ - top m₂ e₂ - 1 ≤ top (m₁ <<< n / m₂) p ∧
      top (m₁ <<< n / m₂) p ≤ max (top m₁ e₁ - top m₂ e₂) (-1074) := by
    rcases Nat.eq_zero_or_pos (m₁ <<< n / m₂) with zero | pos
    · have short := log2_mono (Nat.le_of_lt ((Nat.div_eq_zero_iff_lt pos₂).mp zero))
      have no_bits : (0 : Nat).log2 = 0 := Nat.log2_zero
      rw [zero]
      unfold lastPlace top at *
      omega
    · obtain ⟨least, most⟩ := log2_div_bounds pos₂ pos
      unfold top at *
      omega
  refine ⟨_, bounds.1, bounds.2, outcome_round _ _ ?_⟩
  have := lastPlace_mono bounds.1
  omega

theorem outcome_add :
    ∃ place, top m₁ e₁ ≤ place ∧ Outcome .positive place
      (repack (UnpackedFloat.add .binary64 (.finite .positive m₁ e₁ pos₁)
        (.finite .positive m₂ e₂ pos₂))) := by
  have total (m m' : Nat) (pos : 0 < m) :
      UnpackedFloat.normalize .binary64 (m + m') (min e₁ e₂) .positive
        = UnpackedFloat.round .binary64 .positive (m + m') (min e₁ e₂) := by
    have above : compare ((m : Int) + m') 0 = .gt := Int.compare_eq_gt.mpr (by omega)
    rw [UnpackedFloat.normalize, above]
    rfl
  have shifted : 0 < m₁ <<< (e₁ - min e₁ e₂).toNat := Nat.shiftLeft_pos_iff.mpr pos₁
  have sum : UnpackedFloat.add .binary64 (.finite .positive m₁ e₁ pos₁)
      (.finite .positive m₂ e₂ pos₂) = UnpackedFloat.round .binary64 .positive
        (m₁ <<< (e₁ - min e₁ e₂).toNat + m₂ <<< (e₂ - min e₁ e₂).toNat) (min e₁ e₂) :=
    total _ _ shifted
  have same := top_shiftLeft pos₁ (e₁ - min e₁ e₂).toNat e₁
  have place : e₁ - (e₁ - min e₁ e₂).toNat = min e₁ e₂ := by omega
  have more := log2_mono (Nat.le_add_right (m₁ <<< (e₁ - min e₁ e₂).toNat)
    (m₂ <<< (e₂ - min e₁ e₂).toNat))
  rw [sum]
  refine ⟨_, ?_, outcome_of_round .positive (Nat.add_pos_left shifted _) _⟩
  rw [← same, place]
  unfold top
  omega

end Finite

/-! ## Differences -/

theorem less_of_compare {e e' : Int} {m m' : Nat}
    (h : (compare e e').then (compare m m') = .lt) : e < e' ∨ e = e' ∧ m < m' := by
  rw [Ordering.then_eq_lt, Int.compare_eq_lt, Std.compare_eq_iff_eq, Nat.compare_eq_lt] at h
  exact h

/-- The difference of a double and a smaller one is neither too large nor too small. -/
theorem repack_sub {m m' : Nat} {e e' : Int} (pos : 0 < m) (pos' : 0 < m') (c : Canonical m e)
    (c' : Canonical m' e') (less : (compare e' e).then (compare m' m) = .lt) :
    ∃ q p pos'', repack (UnpackedFloat.sub .binary64 (.finite .positive m e pos)
      (.finite .positive m' e' pos')) = .finite .positive q p pos'' := by
  have order := less_of_compare less
  have low := c.low
  have low' := c'.low
  obtain least : min e e' = e' := by omega
  have apart : m' < m <<< (e - e').toNat := by
    rw [Nat.shiftLeft_eq]
    rcases order with lower | ⟨rfl, fewer⟩
    · have small := c'.small
      have whole : 2 ^ 52 ≤ m := c.whole.resolve_left (by omega)
      have double : 2 ^ 1 ≤ 2 ^ (e - e').toNat := Nat.pow_le_pow_right (by decide) (by omega)
      calc m'
        _ < 2 ^ 52 * 2 ^ 1 := small
        _ ≤ m * 2 ^ (e - e').toNat := Nat.mul_le_mul whole double
    · rwa [Int.sub_self, Int.toNat_zero, Nat.pow_zero, Nat.mul_one]
  have difference : UnpackedFloat.sub .binary64 (.finite .positive m e pos)
      (.finite .positive m' e' pos')
        = UnpackedFloat.round .binary64 .positive (m <<< (e - e').toNat - m') e' := by
    unfold UnpackedFloat.sub decreaseExponent
    dsimp only
    rw [least, Int.sub_self, Int.toNat_zero, Nat.shiftLeft_zero]
    have above : compare (Sign.positive.apply ↑(m <<< (e - e').toNat) - Sign.positive.apply ↑m') 0
        = .gt := Int.compare_eq_gt.mpr (Int.sub_pos.mpr (Int.ofNat_lt.mpr apart))
    rw [UnpackedFloat.normalize, above]
    exact congrArg (UnpackedFloat.round .binary64 .positive · e') (Int.toNat_sub _ _)
  rw [difference]
  exact round_below .positive (by omega) low' c (by omega) (by omega)

/-! ## Natural numbers -/

theorem unpack_toFloat {n : Nat} (pos : 0 < n) (small : n < 2 ^ 53) :
    (UInt64.toFloat n.toUInt64).toModel.unpack
      = repack (UnpackedFloat.round .binary64 .positive n 0) := by
  have word : n.toUInt64.toNat = n := Nat.mod_eq_of_lt (by omega)
  have above : compare (n : Int) 0 = .gt := Int.compare_eq_gt.mpr (Int.natCast_pos.mpr pos)
  show repack (UnpackedFloat.normalize .binary64 n.toUInt64.toNat 0 .positive) = _
  rw [word, UnpackedFloat.normalize, above]
  rfl

theorem ofScientific_zero {n : Nat} (pos : 0 < n) :
    UnpackedFloat.ofScientific .binary64 n 0
      = roundWithAccuracy .binary64 .positive (n <<< 53) (-53) .exact := by
  have high : ¬ (0 : Int) > 2 ^ Format.binary64.exponentBits := by decide
  have low : ¬ (0 : Int) < -(2 ^ Format.binary64.exponentBits + (n.log2 : Int)) := by
    show ¬ (0 : Int) < -(2 ^ 11 + (n.log2 : Int))
    omega
  unfold UnpackedFloat.ofScientific
  rw [dif_neg (Nat.ne_of_gt pos), if_neg high, if_neg low, if_pos (Int.le_refl 0)]
  show roundWithAccuracy .binary64 .positive (n <<< 53 * 1) (-53 + 0) .exact = _
  rw [Nat.mul_one, Int.add_zero]

theorem unpack_ofBits_one : (Float.ofBits 0x3ff0000000000000).toModel.unpack = one := by rfl

theorem canonical_one : Canonical 4503599627370496 (-52) :=
  ⟨by decide, by decide, by decide, .inr (by decide)⟩

theorem top_one : top 4503599627370496 (-52) = 0 := by
  have bits : Nat.log2 4503599627370496 = 52 := Nat.log2_two_pow (n := 52)
  unfold top
  omega

/-- **A natural number as a double.** Below two to the power of 53 the number is a word,
multiplied by one; above, its digits are read. -/
theorem unpack_ofNat_cases {n : Nat} (pos : 0 < n) :
    (n < 2 ^ 53 ∧ (Quantity.ofNat n : Float).toModel.unpack
      = repack (UnpackedFloat.mul .binary64
          (repack (UnpackedFloat.round .binary64 .positive n 0)) one)) ∨
    (2 ^ 53 ≤ n ∧ (Quantity.ofNat n : Float).toModel.unpack
      = repack (roundWithAccuracy .binary64 .positive (n <<< 53) (-53) .exact)) := by
  show (n < 2 ^ 53 ∧ (Float.ofScientific n false 0).toModel.unpack = _) ∨
    (2 ^ 53 ≤ n ∧ (Float.ofScientific n false 0).toModel.unpack = _)
  unfold Float.ofScientific
  split
  · next small =>
    left
    rw [← unpack_toFloat pos small.1, ← unpack_ofBits_one]
    exact ⟨small.1, rfl⟩
  · next large =>
    right
    rw [← ofScientific_zero pos]
    exact ⟨Nat.not_lt.mp fun less => large ⟨less, by decide⟩, rfl⟩

theorem outcome_ofNat {n : Nat} (pos : 0 < n) :
    ∃ place : Int, n.log2 ≤ place ∧ place ≤ n.log2 + 2 ∧
      Outcome .positive place (Quantity.ofNat n : Float).toModel.unpack := by
  rcases unpack_ofNat_cases pos with ⟨small, word⟩ | ⟨_, digits⟩
  · have bits := (Nat.log2_lt (Nat.ne_of_gt pos)).mpr small
    have rounded := outcome_of_round .positive pos 0
    have place : top n 0 = n.log2 := Int.add_zero _
    rw [word]
    rw [place] at rounded
    generalize repack (UnpackedFloat.round .binary64 .positive n 0) = u at rounded ⊢
    cases rounded with
    | zero low => omega
    | infinity high => omega
    | finite word_some canonical least most =>
      have unit := top_one
      obtain ⟨place, lower, upper, outcome⟩ :=
        outcome_mul canonical canonical_one word_some (by decide) .positive .positive
      exact ⟨place, by omega, by omega, outcome⟩
  · have bits := log2_shiftLeft pos 53
    have place : top (n <<< 53) (-53) = n.log2 := by
      unfold top
      omega
    refine ⟨n.log2, Int.le_refl _, by omega, ?_⟩
    rw [digits, ← place]
    exact outcome_round _ _ (le_lastPlace (.inr (by omega)))

end ReadAhead.Binary64
