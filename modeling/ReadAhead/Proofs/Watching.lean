import ReadAhead.Stream

/-!
  Watching — when there is something new on a stream

  A step of a system tells the watchers of a stream once if the value is another one
  after the step than before it, and not at all otherwise. Over a whole run this adds
  up to more than comparing its two ends: a value that changes and changes back is
  news, although it is the same again.

  What is proved:
    1. `Stream.tells_publish` — publishing a value tells of a change, and of nothing
       else.
    2. `Stream.hasChanged_run` — in a system whose steps all do that, a watcher has
       something new after a run if and only if a step of it changed the value.
-/

namespace ReadAhead.Stream

variable {α : Type}

theorem hasChanged_subscribe (s : Stream α) : s.hasChanged s.subscribe = false :=
  bne_self_eq_false s.version

theorem hasChanged_iff {s s' : Stream α} :
    s'.hasChanged s.subscribe = true ↔ s'.version ≠ s.version := by
  rw [hasChanged, bne_iff_ne]
  exact ne_comm

theorem eq_subscribe {s : Stream α} {r : Receiver} (seen : s.hasChanged r = false) :
    r = s.subscribe := by
  obtain ⟨version⟩ := r
  rw [hasChanged, bne_eq_false_iff_eq] at seen
  exact congrArg Receiver.mk seen

variable [BEq α]

/-- From one state of a stream to the next, watchers are told once of a value that
is not equal to the one before, and not told of one that is. -/
def Tells (s s' : Stream α) : Prop :=
  s'.version = s.version + if s.value == s'.value then 0 else 1

/-- A stream that is left alone tells nothing, if its value is equal to itself: not
every double is. -/
theorem Tells.refl {s : Stream α} (same : (s.value == s.value) = true) : s.Tells s := by
  rw [Tells, if_pos same, Nat.add_zero]

theorem tells_publish {s : Stream α} (same : (s.value == s.value) = true) (value : α) :
    s.Tells (s.publish value) := by
  unfold publish
  split
  · exact .refl same
  · next other => rw [Tells, if_neg other]

/-- From one state of a stream to the next, nothing was published or one value was. -/
def Once (s s' : Stream α) : Prop := s' = s ∨ ∃ value, s' = s.publish value

theorem Once.tells {s s' : Stream α} (once : s.Once s') (same : (s.value == s.value) = true) :
    s.Tells s' := by
  rcases once with rfl | ⟨value, rfl⟩
  · exact .refl same
  · exact tells_publish same value

theorem Tells.version_le {s s' : Stream α} (tells : s.Tells s') : s.version ≤ s'.version :=
  Nat.le.intro tells.symm

theorem Tells.version_eq_iff {s s' : Stream α} (tells : s.Tells s') :
    s'.version = s.version ↔ (s.value == s'.value) = true := by
  rw [tells]
  split <;> simp [*]

/-! ## Runs -/

section Runs

variable {σ μ : Type} {step : σ → μ → σ} {view : σ → Stream α} {Holds : σ → Prop}

/-- Some move of a run changes the value that is watched. -/
def ChangedBy (step : σ → μ → σ) (view : σ → Stream α) (s : σ) (moves : List μ) : Prop :=
  ∃ before move after, moves = before ++ move :: after ∧
    ((view (before.foldl step s)).value == (view (step (before.foldl step s) move)).value) = false

theorem changedBy_cons (s : σ) (move : μ) (moves : List μ) :
    ChangedBy step view s (move :: moves) ↔
      ((view s).value == (view (step s move)).value) = false
        ∨ ChangedBy step view (step s move) moves := by
  constructor
  · rintro ⟨before, other, after, split, changed⟩
    cases before with
    | nil =>
      cases split
      exact .inl changed
    | cons first before =>
      cases split
      exact .inr ⟨before, other, after, rfl, changed⟩
  · rintro (changed | ⟨before, other, after, rfl, changed⟩)
    · exact ⟨[], move, moves, rfl, changed⟩
    · exact ⟨move :: before, other, after, rfl, changed⟩

theorem version_le_run (kept : ∀ s move, Holds s → Holds (step s move))
    (tells : ∀ s move, Holds s → (view s).Tells (view (step s move))) (moves : List μ) {s : σ}
    (holds : Holds s) : (view s).version ≤ (view (moves.foldl step s)).version := by
  induction moves generalizing s with
  | nil => exact Nat.le_refl _
  | cons move moves ih =>
    exact Nat.le_trans (tells s move holds).version_le (ih (kept s move holds))

/-- **Watchers have something new exactly after a change.** No step takes a version
back, so what one step has told is still news at the end of the run. -/
theorem hasChanged_run (kept : ∀ s move, Holds s → Holds (step s move))
    (tells : ∀ s move, Holds s → (view s).Tells (view (step s move))) (moves : List μ) {s : σ}
    (holds : Holds s) :
    (view (moves.foldl step s)).hasChanged (view s).subscribe = true
      ↔ ChangedBy step view s moves := by
  induction moves generalizing s with
  | nil =>
    rw [List.foldl_nil, hasChanged_subscribe]
    refine iff_of_false Bool.false_ne_true ?_
    rintro ⟨before, move, after, split, _⟩
    exact absurd split.symm (by simp)
  | cons move moves ih =>
    have first := tells s move holds
    have rest := version_le_run kept tells moves (kept s move holds)
    rw [changedBy_cons, ← ih (kept s move holds), hasChanged_iff, hasChanged_iff, List.foldl_cons,
      ← Bool.not_eq_true, ← first.version_eq_iff]
    have := first.version_le
    omega

end Runs

end ReadAhead.Stream
