import ReadAhead.Proofs.Planner.Offsets
import ReadAhead.Proofs.Planner.Published

/-!
  Fresh start — after a reset, a planner is like a new one

  A reset keeps the tuning, and how often the outputs have changed. All else starts over:
  the turns and the estimate of the speed, the frame window with its run of late frames,
  the direction of gravity, the tilt, the position, the load and the cooldown. A planner
  after a reset is put beside a new one, with no offset between them (`Offset.zero`).

  Runs in which a sum behind the reading speed leaves 64 bits are left out
  (`Proofs/Planner/Checked`).

  What is proved:
    1. `Output.eq_of_zero`, `Move.refl` — without an offset, what corresponds is the same.
    2. `reset_parallel` — after a reset, a planner corresponds to a new one. The values
       published are exactly those of a new one, down to the sign of a zero.
    3. `reset_starts_over` — so from then on it has the outputs of a new planner.
    4. `reset_starts_over_loaded` (anti-vacuity) — a reset in the middle of a load, and
       four late frames that begin none.
-/

namespace ReadAhead

theorem Stream.value_publish_pos (s : Stream Float) {value : Float}
    (above : Quantity.ofNat 0 < value) : (s.publish value).value = value := by
  rcases s.value_publish_or value with same | equal
  · exact same
  · exact Binary64.eq_of_beq_pos equal above

namespace Offset

/-- No offset at all. -/
def zero : Offset := ⟨0, 0⟩

section
variable {α : Type}

theorem Page.eq_of_zero {page page' : Count} (h : zero.Page page page') : page = page' := by
  have same : (page'.toNat : Int) = page.toNat := h.trans (Int.add_zero _)
  exact UInt64.toNat_inj.mp (Int.ofNat_inj.mp same.symm)

theorem Output.eq_of_zero {out out' : PlannerOutput α} (h : zero.Output out out') : out = out' := by
  have targets : out.targets = out'.targets := by
    rw [← List.forall₂_eq_eq_eq]
    exact h.targets.imp fun _ _ same => same.eq_of_zero
  show out = ⟨out'.readingSpeed, out'.targets, out'.sensitivity, out'.underLoad, out'.frameInterval⟩
  rw [h.readingSpeed, ← targets, h.sensitivity, h.underLoad, h.frameInterval]

theorem Page.refl (page : Count) : zero.Page page page := (Int.add_zero _).symm

theorem Moment.refl (moment : Duration) : zero.Moment moment moment := (Int.add_zero _).symm

theorem Move.refl (move : PlannerMove α) : zero.Move move move := by
  cases move with
  | clock reading => exact .clock (.refl reading)
  | event event =>
    cases event with
    | page page pageCount => exact .event (.page (.refl page) (.refl pageCount))
    | frame interval => exact .event (.frame interval)
    | tilt acceleration => exact .event (.tilt acceleration)
    | reset => exact .event .reset

end

theorem reset_parallel {t : Tuning Float} {p : Planner Float} (h : p.Exact t) :
    zero.Parallel p.reset (.start t) := by
  obtain rfl := h.tuned
  have unsigned := Binary64.unsigned_ofNat 0
  have above : (Quantity.ofNat 0 : Float) < Quantity.ofNat 1 := by decide
  have speed : Binary64.Unsigned p.streams.readingSpeed.value := by
    rw [h.speed]
    exact h.pace
  -- all that is remembered is that of a new planner; only the streams are older
  refine { start_parallel zero p.tuning with output := ?_ }
  exact {
    readingSpeed := (Stream.value_publish_unsigned speed unsigned).symm
    targets := by
      rw [show p.reset.output.targets = [] from Stream.value_publish _ _]
      exact .nil
    sensitivity := (Stream.value_publish_pos _ above).symm
    underLoad := (Stream.value_publish _ _).symm
    frameInterval := (Stream.value_publish_unsigned h.average unsigned).symm }

end Offset

namespace TimedPlanner

/-- **A reset is a fresh start.** With a tuning that is accepted, after any moves: a reset
makes the outputs those of a new planner, and after any further moves they are those of a
new planner with the same tuning that was started at the reset and has seen only these. -/
theorem reset_starts_over (t : Tuning Float) (usable : t.validate = .ok t) (clock : Duration)
    (moves : List (PlannerMove Float)) :
    let s := (start t clock).run moves
    let again := s.step (.event .reset)
    again.planner.output = (start t s.clock).planner.output ∧
    ∀ later, (again.run later).planner.output = ((start t s.clock).run later).planner.output := by
  intro s again
  have timed : Offset.zero.Timed again (start t s.clock) :=
    ⟨Offset.reset_parallel (run_exact usable clock moves), .refl s.clock⟩
  refine ⟨timed.planner.output.eq_of_zero, fun later => ?_⟩
  have same : later.Forall₂ Offset.zero.Move later :=
    List.forall₂_same.mpr fun move _ => .refl move
  exact (timed.run same).planner.output.eq_of_zero

/-- **Not vacuous**: after five late frames there is a load. A reset ends it, and four more
late frames, one less than it takes, begin no other. -/
theorem reset_starts_over_loaded :
    let again := ((start .standard 0).run stutter).step (.event .reset)
    ((start .standard 0).run stutter).planner.output.underLoad = true ∧
    again.planner.output.underLoad = false ∧
    (again.run (List.replicate 4 (.event (.frame 40.0)))).planner.output.underLoad = false := by
  intro again
  obtain ⟨first, after⟩ := reset_starts_over .standard Tuning.validate_standard 0 stutter
  refine ⟨by decide +kernel, congrArg PlannerOutput.underLoad first, ?_⟩
  rw [after]
  decide +kernel

end TimedPlanner

end ReadAhead
