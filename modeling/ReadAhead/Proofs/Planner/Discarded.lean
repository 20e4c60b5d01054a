import ReadAhead.Proofs.Numeric.Equality
import ReadAhead.Proofs.Planner.Onset

/-!
  Discarded measurements — calls that might as well not have been made

  Some calls are discarded: frame intervals and accelerations that can be no
  measurement, and pages outside of the document (`PlannerMove.IsDiscarded`). A run in
  which some moves are marked is put beside the one without them. To compare the two, the
  states before and after every move that is not marked are listed (`stages`), with all
  that a planner remembers and how often each of its outputs has changed.

  Runs in which a sum behind the reading speed leaves 64 bits are left out
  (`Proofs/Planner/Checked`).

  What is proved:
    1. `apply_discarded` — a discarded call changes nothing, and begins no load.
    2. `stages_filter` — so what is not marked finds and leaves the same states, whether
       or not the discarded calls that are marked are made.
    3. `discards_invisible` — which holds of every run of a new planner.
    4. `discards_invisible_stutter` (anti-vacuity) — a load begins after five late frames
       with all kinds of discarded calls between them.
-/

namespace ReadAhead

/-- Whether a call is discarded: a page outside of the document, a frame interval that is
no number, infinite, not above zero or longer than plausible, or an acceleration that has
a coordinate which is not finite, or no usable direction. -/
def PlannerMove.IsDiscarded (t : Tuning Float) : PlannerMove Float → Prop
  | .event (.page page pageCount) => pageCount ≤ page
  | .event (.frame interval) => interval.isNaN = true ∨ interval.isInf = true ∨
      interval ≤ Quantity.ofNat 0 ∨ t.longestFrame < interval
  | .event (.tilt a) => a.x.isFinite = false ∨ a.y.isFinite = false ∨ a.z.isFinite = false ∨
      Quantity.magnitude a < GravityFilter.weakest
  | .clock _ | .event .reset => False

variable {t : Tuning Float}

instance (t : Tuning Float) : (move : PlannerMove Float) → Decidable (move.IsDiscarded t)
  | .event (.page _ _) => inferInstanceAs (Decidable (_ ≤ _))
  | .event (.frame _) => inferInstanceAs (Decidable (_ ∨ _ ∨ _ ∨ _))
  | .event (.tilt _) => inferInstanceAs (Decidable (_ ∨ _ ∨ _ ∨ _))
  | .clock _ | .event .reset => inferInstanceAs (Decidable False)

/-! ## One call -/

theorem FrameWindow.isMeasurement_eq_false {interval : Float}
    (h : PlannerMove.IsDiscarded t (.event (.frame interval))) :
    isMeasurement t interval = false := by
  rw [← Bool.not_eq_true, isMeasurement_iff]
  rintro ⟨finite, above, short⟩
  rcases h with odd | odd | below | long
  · exact Bool.false_ne_true ((Binary64.isFinite_eq_false (.inl odd)).symm.trans finite)
  · exact Bool.false_ne_true ((Binary64.isFinite_eq_false (.inr odd)).symm.trans finite)
  · exact Binary64.not_le_of_lt above below
  · exact Binary64.not_le_of_lt long short

theorem GravityFilter.isUsable_eq_false {a : Axes Float}
    (h : PlannerMove.IsDiscarded t (.event (.tilt a))) : isUsable a = false := by
  have parts : isUsable a = (a.x.isFinite && a.y.isFinite && a.z.isFinite
      && !decide (Quantity.magnitude a < weakest)) := rfl
  rw [parts]
  rcases h with odd | odd | odd | weak
  · simp [odd]
  · simp [odd]
  · simp [odd]
  · simp [weak]

namespace Planner

variable {p : Planner Float}

/-- **A discarded call changes nothing**, and is no overload. -/
theorem apply_discarded (now : Duration) {event : PlannerEvent Float}
    (h : PlannerMove.IsDiscarded p.tuning (.event event)) :
    p.apply now event = p ∧ p.isOverload event = false := by
  cases event with
  | page page pageCount => exact ⟨if_pos h, rfl⟩
  | frame interval =>
    have discarded := FrameWindow.isMeasurement_eq_false h
    refine ⟨?_, ?_⟩
    · show p.observeFrame now interval = p
      rw [observeFrame_eq, discarded]
      rfl
    · simp [isOverload, FrameWindow.observe, discarded]
  | tilt a =>
    have discarded := GravityFilter.isUsable_eq_false h
    refine ⟨?_, rfl⟩
    show p.observeTilt a = p
    simp [observeTilt, GravityFilter.observe, discarded]
  | reset => cases h

end Planner

namespace TimedPlanner

theorem step_discarded {s : TimedPlanner Float} (tuned : s.planner.tuning = t)
    {move : PlannerMove Float} (h : move.IsDiscarded t) : s.step move = s := by
  subst tuned
  cases move with
  | clock reading => cases h
  | event event =>
    obtain ⟨same, calm⟩ := Planner.apply_discarded s.clock h
    simp only [step, same, calm, Bool.false_eq_true, if_false]

/-! ## Runs with and without discarded calls -/

/-- The states before and after every move that is not marked. Moves that are marked are
made like all others. -/
def stages (s : TimedPlanner Float) :
    List (PlannerMove Float × Bool) → List (TimedPlanner Float × TimedPlanner Float)
  | [] => []
  | (move, false) :: moves => (s, s.step move) :: stages (s.step move) moves
  | (move, true) :: moves => stages (s.step move) moves

theorem stages_filter {s : TimedPlanner Float}
    (watched : s.planner.Watched t s.latest) {moves : List (PlannerMove Float × Bool)}
    (discarded : ∀ move ∈ moves, move.2 = true → move.1.IsDiscarded t) :
    s.stages (moves.filter (!·.2)) = s.stages moves ∧
      s.run ((moves.filter (!·.2)).map (·.1)) = s.run (moves.map (·.1)) := by
  induction moves generalizing s with
  | nil => exact ⟨rfl, rfl⟩
  | cons move moves ih =>
    obtain ⟨move, marked⟩ := move
    have next := ih (step_watched watched move) fun m hm => discarded m (.tail _ hm)
    cases marked with
    | false => exact ⟨congrArg ((s, s.step move) :: ·) next.1, next.2⟩
    | true =>
      have same : s.step move = s := step_discarded watched.tuned (discarded _ (.head _) rfl)
      rw [same] at next
      refine ⟨next.1.trans ?_, next.2.trans ?_⟩
      · show s.stages moves = (s.step move).stages moves
        rw [same]
      · show s.run (moves.map (·.1)) = (s.step move).run (moves.map (·.1))
        rw [same]

/-- **Discarded calls are invisible.** If all moves that are marked in a run are discarded
calls, then without them every other move finds the same state and leaves the same state:
the same outputs, changed as often before and after the move, and the same memory. The run
ends in the same state, and there another discarded call would change nothing either: it
neither goes on with a run of late frames nor breaks it, and ends no load. -/
theorem discards_invisible (t : Tuning Float) (clock : Duration)
    (moves : List (PlannerMove Float × Bool))
    (discarded : ∀ move ∈ moves, move.2 = true → move.1.IsDiscarded t) :
    let kept := moves.filter (!·.2)
    let s := (start t clock).run (moves.map (·.1))
    (start t clock).stages kept = (start t clock).stages moves ∧
    (start t clock).run (kept.map (·.1)) = s ∧
    ∀ move, move.IsDiscarded t → s.step move = s := by
  intro kept s
  have watched : (start t clock).planner.Watched t (start t clock).latest :=
    Planner.start_watched t
  obtain ⟨same, last⟩ := stages_filter watched discarded
  exact ⟨same, last, fun move h => step_discarded (run_watched t clock _).tuned h⟩

/-- Five late frames, with calls between them that are discarded. -/
def noisyStutter : List (PlannerMove Float × Bool) :=
  [(.event (.page 3 100), false), (.clock 1000000000, false),
    (.event (.frame 40.0), false), (.event (.frame (0.0 / 0.0)), true),
    (.event (.frame 40.0), false), (.event (.frame (-16.0)), true),
    (.event (.frame 40.0), false), (.event (.page 100 100), true),
    (.event (.frame 40.0), false), (.event (.tilt ⟨0.0, 0.1, 0.1⟩), true),
    (.event (.frame 40.0), false), (.event (.frame 1000000.0), true)]

/-- **Not vacuous**: with and without the calls that are discarded, the five late frames
begin a load. -/
theorem discards_invisible_stutter :
    (start .standard 0).stages (noisyStutter.filter (!·.2))
      = (start .standard 0).stages noisyStutter ∧
    ((start .standard 0).run (noisyStutter.map (·.1))).planner.output.underLoad = true := by
  have discarded : ∀ move ∈ noisyStutter, move.2 = true → move.1.IsDiscarded .standard := by
    decide +kernel
  obtain ⟨same, last, _⟩ := discards_invisible .standard 0 noisyStutter discarded
  refine ⟨same, ?_⟩
  rw [← last]
  decide +kernel

end TimedPlanner

end ReadAhead
