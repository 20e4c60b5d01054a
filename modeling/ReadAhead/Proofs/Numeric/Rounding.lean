import ReadAhead.Proofs.Numeric.Sign

/-!
  Rounding — which double a number comes to, as far as this library asks

  A number is given by a mantissa, the place of its last bit, and what lies beyond that
  bit. Rounding drops bits until the mantissa has room, and adds one or does not;
  whether it does is told by what was dropped and is of no interest here. What counts
  is how many bits are kept, that at most one is carried, and when the outcome is too
  large or too small.

  Places are measured by the highest bit (`top`). A double has 53 bits, or fewer where
  the last one would be below the place of minus 1074.

  What is proved:
    1. `roundWithAccuracy_eq` — rounding keeps what there is room for, or the next
       mantissa after it.
    2. `canonical_unpack`, `unpack_pack` — the mantissas and places of doubles, which
       are unchanged by packing.
    3. `outcome_round` — so a number is rounded to a double whose highest bit is where
       the number has it, or one place further up; to zero only below all places, and to
       infinity only above them.
-/

namespace ReadAhead.Binary64

open Float.Model (Format UnpackedFloat totalExponent)
open Float.Model.UnpackedFloat

/-! ## Places -/

/-- The place of the highest bit. -/
def top (m : Nat) (e : Int) : Int := m.log2 + e

/-- The place of the last bit that there is room for below the highest one. -/
def lastPlace (top : Int) : Int := max (top - 52) (-1074)

theorem targetExponent_eq (m : Nat) (e : Int) :
    Format.binary64.targetExponent (totalExponent m e) = lastPlace (top m e) := by
  show max ((m.log2 : Int) + 1 + e - 53) (-1074) = max (m.log2 + e - 52) (-1074)
  congr 1
  omega

theorem lastPlace_le {m : Nat} (small : m < 2 ^ 53) {e : Int} (low : -1074 ≤ e) :
    lastPlace (top m e) ≤ e := by
  have bits : m.log2 ≤ 52 := by
    rcases Nat.eq_zero_or_pos m with rfl | pos
    · decide
    · exact Nat.le_of_lt_succ ((Nat.log2_lt (Nat.ne_of_gt pos)).mpr small)
  unfold lastPlace top
  omega

/-! ## Dropping bits -/

theorem mantissa_shiftRight (em : ExtendedMantissa) (n : Nat) :
    (em >>> n).mantissa = em.mantissa / 2 ^ n := by
  induction n with
  | zero => exact (Nat.div_one _).symm
  | succ n ih =>
    show (em >>> n).mantissa / 2 = em.mantissa / 2 ^ (n + 1)
    rw [ih, Nat.div_div_eq_div_mul, Nat.pow_succ]

theorem mantissa_ofMantissaAndAccuracy (m : Nat) (acc : Accuracy) :
    (ExtendedMantissa.ofMantissaAndAccuracy m acc).mantissa = m := by
  cases acc with
  | exact => rfl
  | inexact o => cases o <;> rfl

theorem roundedMantissa_cases (em : ExtendedMantissa) :
    em.mantissa ≤ em.roundedMantissa ∧ em.roundedMantissa ≤ em.mantissa + 1 := by
  obtain ⟨m, r, s⟩ := em
  cases r <;> cases s <;>
    simp only [ExtendedMantissa.roundedMantissa, ExtendedMantissa.accuracy,
      Accuracy.roundToNearestEven] <;> omega

theorem shiftToTargetExponent_eq (m : Nat) (e : Int) (acc : Accuracy)
    (le : e ≤ lastPlace (top m e)) :
    (shiftToTargetExponent .binary64 m e acc).1.mantissa
        = m / 2 ^ (lastPlace (top m e) - e).toNat ∧
      (shiftToTargetExponent .binary64 m e acc).2 = lastPlace (top m e) := by
  unfold shiftToTargetExponent shiftToExponent
  rw [targetExponent_eq]
  dsimp only
  rw [mantissa_shiftRight, mantissa_ofMantissaAndAccuracy]
  exact ⟨rfl, by omega⟩

theorem shiftToTargetExponent_room {m : Nat} {e : Int} (small : m < 2 ^ 53) (low : -1074 ≤ e) :
    shiftToTargetExponent .binary64 m e .exact = (⟨m, false, false⟩, e) := by
  unfold shiftToTargetExponent shiftToExponent
  rw [targetExponent_eq]
  have no_shift : (lastPlace (top m e) - e).toNat = 0 := by
    have := lastPlace_le small low
    omega
  dsimp only
  rw [no_shift, Int.natCast_zero, Int.add_zero]
  rfl

theorem shiftToTargetExponent_carry {e : Int} (low : -1074 ≤ e) :
    shiftToTargetExponent .binary64 (2 ^ 53) e .exact = (⟨2 ^ 52, false, false⟩, e + 1) := by
  unfold shiftToTargetExponent shiftToExponent
  rw [targetExponent_eq]
  have one_shift : (lastPlace (top (2 ^ 53) e) - e).toNat = 1 := by
    have bits : (2 ^ 53).log2 = 53 := Nat.log2_two_pow
    unfold lastPlace top
    rw [bits]
    omega
  dsimp only
  rw [one_shift]
  rfl

/-- As many bits are kept as there is room for. -/
theorem kept_lt (m : Nat) (e : Int) : m / 2 ^ (lastPlace (top m e) - e).toNat < 2 ^ 53 := by
  rw [Nat.div_lt_iff_lt_mul (Nat.two_pow_pos _), ← Nat.pow_add]
  refine Nat.lt_of_lt_of_le Nat.lt_log2_self (Nat.pow_le_pow_right (by decide) ?_)
  unfold lastPlace top
  omega

/-- The double for a mantissa that has room, or just no longer. -/
def settle (s : Sign) (q : Nat) (e : Int) : UnpackedFloat :=
  if h : q = 0 then .zero s
  else if q < 2 ^ 53 then .finite s q e (Nat.pos_of_ne_zero h)
  else .finite s (2 ^ 52) (e + 1) (by decide)

theorem roundedMantissa_le (m : Nat) (e : Int) (acc : Accuracy) (le : e ≤ lastPlace (top m e)) :
    (shiftToTargetExponent .binary64 m e acc).1.roundedMantissa ≤ 2 ^ 53 := by
  obtain ⟨_, most⟩ := roundedMantissa_cases (shiftToTargetExponent .binary64 m e acc).1
  have few := kept_lt m e
  rw [(shiftToTargetExponent_eq m e acc le).1] at most
  omega

/-- After rounding the mantissa, a carry is all that is left to see to. -/
theorem roundWithAccuracy_settle (s : Sign) (m : Nat) (e : Int) (acc : Accuracy)
    (le : e ≤ lastPlace (top m e)) :
    roundWithAccuracy .binary64 s m e acc
      = settle s (shiftToTargetExponent .binary64 m e acc).1.roundedMantissa
          (lastPlace (top m e)) := by
  have place := (shiftToTargetExponent_eq m e acc le).2
  have fits := roundedMantissa_le m e acc le
  have low : -1074 ≤ lastPlace (top m e) := Int.le_max_right _ _
  unfold roundWithAccuracy
  generalize shiftToTargetExponent .binary64 m e acc = shifted at *
  obtain ⟨em, e₁⟩ := shifted
  dsimp only at *
  subst place
  unfold settle
  by_cases room : em.roundedMantissa < 2 ^ 53
  · rw [shiftToTargetExponent_room room low]
    simp only [if_pos room]
  · have full : em.roundedMantissa = 2 ^ 53 := by omega
    rw [full, shiftToTargetExponent_carry low]
    rfl

/-- **Rounding keeps what there is room for**, or the next mantissa after it. -/
theorem roundWithAccuracy_eq (s : Sign) (m : Nat) (e : Int) (acc : Accuracy)
    (le : e ≤ lastPlace (top m e)) :
    ∃ q, m / 2 ^ (lastPlace (top m e) - e).toNat ≤ q ∧
      q ≤ m / 2 ^ (lastPlace (top m e) - e).toNat + 1 ∧ q ≤ 2 ^ 53 ∧
      roundWithAccuracy .binary64 s m e acc = settle s q (lastPlace (top m e)) := by
  obtain ⟨least, most⟩ := roundedMantissa_cases (shiftToTargetExponent .binary64 m e acc).1
  rw [(shiftToTargetExponent_eq m e acc le).1] at least most
  exact ⟨_, least, most, roundedMantissa_le m e acc le, roundWithAccuracy_settle s m e acc le⟩

/-! ## Packing -/

/-- What becomes of a result that is made a double. -/
def repack (u : UnpackedFloat) : UnpackedFloat :=
  unpack .binary64 (UnpackedFloat.pack .binary64 u)

/-- The mantissas and places that doubles have. -/
structure Canonical (m : Nat) (e : Int) : Prop where
  small : m < 2 ^ 53
  low : -1074 ≤ e
  high : e ≤ 971
  /-- Only where the last place is the lowest of all there may be fewer bits. -/
  whole : e = -1074 ∨ 2 ^ 52 ≤ m

theorem Canonical.lastPlace_eq {m : Nat} {e : Int} (c : Canonical m e) :
    lastPlace (top m e) = e := by
  have le := lastPlace_le c.small c.low
  have low := c.low
  rcases c.whole with lowest | whole
  · unfold lastPlace at le ⊢
    omega
  · have bits : 52 ≤ m.log2 := (Nat.le_log2 (by omega)).mpr whole
    unfold lastPlace top at le ⊢
    omega

theorem canonical_unpack {b : BitVec Format.binary64.numBits} {s : Sign} {m : Nat} {e : Int}
    {pos : 0 < m} (h : unpack .binary64 b = .finite s m e pos) : Canonical m e := by
  have small := mantissa_lt h
  have bound : (unpackExponent b).toNat < 2 ^ 11 := (unpackExponent b).isLt
  unfold unpack at h
  dsimp only at h
  split at h
  · split at h <;> cases h
  · next below =>
    have differs : (unpackExponent b).toNat ≠ 2047 := fun same =>
      below (BitVec.eq_of_toNat_eq same)
    split at h
    · next subnormal =>
      split at h
      · cases h
      · cases h
        rw [subnormal]
        exact ⟨small, by decide, by decide, .inl rfl⟩
    · next nonzero =>
      have positive : (unpackExponent b).toNat ≠ 0 := fun zero =>
        nonzero (BitVec.eq_of_toNat_eq zero)
      cases h
      have whole := toNat_implicit (unpackMantissa b)
      refine ⟨small, ?_, ?_, .inr (by omega)⟩
      · show -1074 ≤ ((unpackExponent b).toNat : Int) - 1075
        omega
      · show ((unpackExponent b).toNat : Int) - 1075 ≤ 971
        omega

theorem repack_zero (s : Sign) : repack (.zero s) = .zero s := by
  cases s <;> rfl

theorem unpack_subnormal (s : Sign) {m : BitVec 52} (pos : 0 < m.toNat) :
    unpack .binary64 (packComponents .binary64 s 0#_ m) = .finite s m.toNat (-1074) pos := by
  have sign : Sign.ofBitVec s.toBitVec = s := by cases s <;> rfl
  have other : m ≠ 0#52 := fun zero => Nat.ne_of_gt pos (congrArg BitVec.toNat zero)
  unfold unpack
  simp only [unpackExponent_packComponents, unpackMantissa_packComponents,
    unpackSign_packComponents, sign]
  exact (if_neg (by decide)).trans ((if_pos trivial).trans (dif_neg other))

theorem unpack_normal (s : Sign) {e : BitVec 11} (fits : e ≠ -1#_) (pos : e ≠ 0#_)
    (m : BitVec 52) :
    unpack .binary64 (packComponents .binary64 s e m)
      = .finite s (2 ^ 52 + m.toNat) (e.toNat - 1075) (by omega) := by
  have sign : Sign.ofBitVec s.toBitVec = s := by cases s <;> rfl
  unfold unpack
  simp only [unpackExponent_packComponents, unpackMantissa_packComponents,
    unpackSign_packComponents, sign]
  refine (if_neg fits).trans ((if_neg pos).trans ?_)
  simp only [toNat_implicit]
  rfl

/-- **A canonical mantissa is that of the double it is packed to.** -/
theorem unpack_pack {m : Nat} {e : Int} (c : Canonical m e) (s : Sign) (pos : 0 < m) :
    repack (.finite s m e pos) = .finite s m e pos := by
  obtain ⟨small, low, high, whole⟩ := c
  unfold repack
  by_cases normal : 2 ^ 52 ≤ m
  · have place : (BitVec.ofNat 11 (e + 1075).toNat).toNat = (e + 1075).toNat :=
      Nat.mod_eq_of_lt (by omega)
    have fits : BitVec.ofNat 11 (e + 1075).toNat ≠ -1#11 := fun full => by
      have full := congrArg BitVec.toNat full
      rw [place] at full
      change _ = 2047 at full
      omega
    have positive : BitVec.ofNat 11 (e + 1075).toNat ≠ 0#11 := fun zero => by
      have zero := congrArg BitVec.toNat zero
      rw [place] at zero
      change _ = 0 at zero
      omega
    have back : (((BitVec.ofNat 11 (e + 1075).toNat).toNat : Int) - 1075) = e := by
      rw [place]
      omega
    have packed := pack_normal s (BitVec.ofNat 11 (e + 1075).toNat) pos normal small fits
    simp only [back] at packed
    have stored : 2 ^ 52 + (BitVec.ofNat 52 m).toNat = m := by
      rw [BitVec.toNat_ofNat]
      omega
    rw [packed, unpack_normal s fits positive]
    simp only [stored, back]
  · obtain rfl : e = -1074 := whole.resolve_right normal
    have stored : (BitVec.ofNat 52 m).toNat = m := Nat.mod_eq_of_lt (Nat.not_le.mp normal)
    rw [pack_subnormal s pos (Nat.not_le.mp normal), unpack_subnormal s (by rwa [stored])]
    simp only [stored]

theorem repack_large (s : Sign) {m : Nat} {e : Int} (large : 972 ≤ e) (pos : 0 < m) :
    repack (.finite s m e pos) = .infinity s := by
  have beyond : 2 ^ 11 ≤ (e + 1023 + 52).toNat + 1 := by omega
  have packed : UnpackedFloat.pack .binary64 (.finite s m e pos) = packedInfinity .binary64 s := by
    rw [UnpackedFloat.pack]
    exact if_pos beyond
  rw [repack, packed]
  cases s <;> rfl

/-! ## What a number is rounded to -/

/-- The double for a number whose highest bit is at a place: one whose highest bit is
there or one further up. It is zero only below all places, and infinite only if there
is no room above. -/
inductive Outcome (s : Sign) (place : Int) : UnpackedFloat → Prop where
  | zero (low : place ≤ -1074) : Outcome s place (.zero s)
  | finite {m : Nat} {e : Int} (pos : 0 < m) (canonical : Canonical m e)
      (least : place ≤ top m e) (most : top m e ≤ max (place + 1) (-1074)) :
      Outcome s place (.finite s m e pos)
  | infinity (high : 1023 ≤ place) : Outcome s place (.infinity s)

theorem log2_div_two_pow {m n : Nat} (pos : 0 < m / 2 ^ n) :
    (m / 2 ^ n).log2 + n = m.log2 := by
  have long : 2 ^ n ≤ m := (Nat.div_pos_iff.mp pos).2
  have bits : n ≤ m.log2 := (Nat.le_log2 (by have := Nat.two_pow_pos n; omega)).mpr long
  rw [Nat.log2_eq_log_two] at bits ⊢
  rw [Nat.log2_eq_log_two, Nat.log_div_base_pow, Nat.sub_add_cancel bits]

/-- What is kept is nothing only below all places, and has its highest bit where the
number has it otherwise. -/
theorem top_kept {m : Nat} {e : Int} (le : e ≤ lastPlace (top m e)) :
    (m / 2 ^ (lastPlace (top m e) - e).toNat = 0 ∧ top m e ≤ -1074 ∧
        lastPlace (top m e) = -1074) ∨
    (0 < m / 2 ^ (lastPlace (top m e) - e).toNat ∧
        top (m / 2 ^ (lastPlace (top m e) - e).toNat) (lastPlace (top m e)) = top m e) := by
  generalize shift : (lastPlace (top m e) - e).toNat = n
  have place : top m e = m.log2 + e := rfl
  have last : lastPlace (top m e) = max (top m e - 52) (-1074) := rfl
  rcases Nat.eq_zero_or_pos (m / 2 ^ n) with zero | pos
  · left
    rcases (Nat.div_eq_zero_iff).mp zero with never | short
    · exact absurd never (Nat.ne_of_gt (Nat.two_pow_pos n))
    · have bits : m.log2 < n ∨ m = 0 := by
        rcases Nat.eq_zero_or_pos m with zero | pos
        · exact .inr zero
        · exact .inl ((Nat.log2_lt (Nat.ne_of_gt pos)).mpr short)
      rcases bits with bits | rfl
      · exact ⟨zero, by omega, by omega⟩
      · have none_bits : (0 : Nat).log2 = 0 := Nat.log2_zero
        exact ⟨zero, by omega, by omega⟩
  · right
    have bits := log2_div_two_pow pos
    refine ⟨pos, ?_⟩
    unfold top at *
    omega

theorem log2_between {k q : Nat} (pos : 0 < k) (least : k ≤ q) (most : q ≤ k + 1) :
    k.log2 ≤ q.log2 ∧ q.log2 ≤ k.log2 + 1 := by
  have lower := Nat.log2_self_le (Nat.ne_of_gt pos)
  have upper : k < 2 ^ (k.log2 + 1) := Nat.lt_log2_self
  have double : 2 ^ (k.log2 + 1) < 2 ^ (k.log2 + 2) := Nat.pow_lt_pow_right (by decide) (by omega)
  constructor
  · exact (Nat.le_log2 (by omega)).mpr (by omega)
  · exact Nat.le_of_lt_succ ((Nat.log2_lt (by omega)).mpr (by omega))

/-- There are as many bits as there is room for, or the last place is the lowest of
all. -/
theorem kept_whole {m : Nat} {e : Int} (le : e ≤ lastPlace (top m e)) :
    lastPlace (top m e) = -1074 ∨ 2 ^ 52 ≤ m / 2 ^ (lastPlace (top m e) - e).toNat := by
  have last : lastPlace (top m e) = max (top m e - 52) (-1074) := rfl
  rcases top_kept le with ⟨_, _, lowest⟩ | ⟨pos, place⟩
  · exact .inl lowest
  · rw [← Nat.le_log2 (Nat.ne_of_gt pos)]
    unfold top at place last ⊢
    omega

theorem repack_settle (s : Sign) {q : Nat} {p : Int} (pos : 0 < q) (fits : q ≤ 2 ^ 53)
    (low : -1074 ≤ p) (whole : p = -1074 ∨ 2 ^ 52 ≤ q) (room : p ≤ 970 ∨ p = 971 ∧ q < 2 ^ 53) :
    ∃ m e pos, Canonical m e ∧ top m e = top q p ∧
      repack (settle s q p) = .finite s m e pos := by
  unfold settle
  rw [dif_neg (Nat.ne_of_gt pos)]
  by_cases few : q < 2 ^ 53
  · rw [if_pos few]
    have canonical : Canonical q p := ⟨few, low, by omega, whole⟩
    exact ⟨q, p, pos, canonical, rfl, unpack_pack canonical s pos⟩
  · obtain rfl : q = 2 ^ 53 := by omega
    rw [if_neg few]
    have canonical : Canonical (2 ^ 52) (p + 1) :=
      ⟨by decide, by omega, by omega, .inr (Nat.le_refl _)⟩
    refine ⟨2 ^ 52, p + 1, by decide, canonical, ?_, unpack_pack canonical s (by decide)⟩
    have bits : (2 ^ 53).log2 = 53 := Nat.log2_two_pow
    have bits' : (2 ^ 52).log2 = 52 := Nat.log2_two_pow
    unfold top
    omega

theorem repack_settle_large (s : Sign) {q : Nat} {p : Int} (pos : 0 < q) (fits : q ≤ 2 ^ 53)
    (large : 972 ≤ p ∨ p = 971 ∧ q = 2 ^ 53) :
    repack (settle s q p) = .infinity s := by
  unfold settle
  rw [dif_neg (Nat.ne_of_gt pos)]
  split
  · exact repack_large s (by omega) _
  · exact repack_large s (by omega) _

/-- **What a number is rounded to.** -/
theorem outcome_round (s : Sign) {m : Nat} {e : Int} (acc : Accuracy)
    (le : e ≤ lastPlace (top m e)) :
    Outcome s (top m e) (repack (roundWithAccuracy .binary64 s m e acc)) := by
  obtain ⟨q, least, most, fits, rounded⟩ := roundWithAccuracy_eq s m e acc le
  have kept := top_kept le
  have whole := kept_whole le
  have last : lastPlace (top m e) = max (top m e - 52) (-1074) := rfl
  rw [rounded]
  generalize m / 2 ^ (lastPlace (top m e) - e).toNat = k at least most kept whole
  generalize top m e = t at kept last whole ⊢
  generalize lastPlace t = p at kept last whole ⊢
  rcases Nat.eq_zero_or_pos q with rfl | pos
  · have low : t ≤ -1074 := by
      rcases kept with ⟨_, low, _⟩ | ⟨pos, _⟩
      · exact low
      · omega
    rw [settle, dif_pos rfl, repack_zero]
    exact .zero low
  · have place : t ≤ top q p ∧ top q p ≤ max (t + 1) (-1074) := by
      rcases kept with ⟨_, low, lowest⟩ | ⟨kept_some, place⟩
      · obtain rfl : q = 1 := by omega
        have bits : (1 : Nat).log2 = 0 := rfl
        unfold top
        omega
      · obtain ⟨lower, upper⟩ := log2_between kept_some least most
        unfold top at place ⊢
        omega
    by_cases room : p ≤ 970 ∨ p = 971 ∧ q < 2 ^ 53
    · obtain ⟨m', e', pos', canonical, same, packed⟩ :=
        repack_settle s pos fits (by omega) (by omega) room
      rw [packed]
      exact .finite pos' canonical (same ▸ place.1) (same ▸ place.2)
    · rw [repack_settle_large s pos fits (by omega)]
      exact .infinity (by omega)

end ReadAhead.Binary64
