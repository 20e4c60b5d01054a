import ReadAhead.Proofs.Numeric.Sign
import ReadAhead.Proofs.Planner.Onset
import ReadAhead.Proofs.Planner.Validation

/-!
  Published values — what is published is the estimate, to the last bit

  A stream keeps its value when an equal one is published. Among doubles that can
  leave a zero with the other sign standing. The reading speed and the average frame
  interval never have a minus sign, so for them it does not.

  Runs in which a sum behind the reading speed leaves 64 bits are left out
  (`Proofs/Planner/Checked`).

  What is proved:
    1. `Stream.value_publish_unsigned` — without minus signs, publishing is exact.
    2. `Pace.unsigned_observe`, `FrameWindow.unsigned_average` — neither estimate ever
       has a minus sign, if the weight of the newest measurement is one.
    3. `apply_exact`, `run_exact` — so in every run the speed published is the estimate.
-/

namespace ReadAhead

open Binary64 (Unsigned)

theorem Stream.value_publish_unsigned {s : Stream Float} {value : Float} (hs : Unsigned s.value)
    (hv : Unsigned value) : (s.publish value).value = value := by
  unfold publish
  split
  · next same => exact Binary64.eq_of_beq_unsigned same hs hv
  · rfl

theorem Stream.unsigned_publish {s : Stream Float} {value : Float} (hs : Unsigned s.value)
    (hv : Unsigned value) : Unsigned (s.publish value).value := by
  rw [value_publish_unsigned hs hv]
  exact hv

/-! ## Estimates without a minus sign -/

namespace Pace

theorem unsigned_inSeconds (d : Duration) : Unsigned (inSeconds d) :=
  Binary64.unsigned_add (Binary64.unsigned_ofNat _)
    (Binary64.unsigned_div (Binary64.unsigned_ofNat _) (Binary64.unsigned_ofNat _))

theorem unsigned_measured {turns : List PageTurn} {speed : Float}
    (h : measured? turns = some speed) : Unsigned speed := by
  obtain ⟨d, _, rfl⟩ := Option.map_eq_some_iff.mp h
  exact Binary64.unsigned_div
    (Binary64.unsigned_mul (Binary64.unsigned_ofNat _) (Binary64.unsigned_ofNat _))
    (unsigned_inSeconds d)

variable {t : Tuning Float}

theorem unsigned_smooth (weight : Quantity.isWeight t.speedWeight = true) {estimate measured : Float}
    (he : Unsigned estimate) (hm : Unsigned measured) : Unsigned (smooth t estimate measured) := by
  simp only [Quantity.isWeight, Quantity.isPositive, Bool.and_eq_true, decide_eq_true_eq] at weight
  obtain ⟨⟨_, above⟩, most⟩ := weight
  unfold smooth
  split
  · exact Binary64.unsigned_add (Binary64.unsigned_mul (Binary64.unsigned_of_pos above) hm)
      (Binary64.unsigned_mul (Binary64.unsigned_complement above most) he)
  · exact hm

variable {s : Pace Float}

theorem unsigned_push (weight : Quantity.isWeight t.speedWeight = true)
    (h : Unsigned s.pagesPerMinute) (next : PageTurn) : Unsigned (s.push t next).pagesPerMinute := by
  unfold push
  dsimp only
  split
  · exact h
  · next measured => exact unsigned_smooth weight h (unsigned_measured measured)

theorem unsigned_observe (weight : Quantity.isWeight t.speedWeight = true)
    (h : Unsigned s.pagesPerMinute) (next : PageTurn) :
    Unsigned (s.observe t next).pagesPerMinute := by
  have carried (last : PageTurn) : Unsigned (s.carry t last next).pagesPerMinute := by
    unfold carry
    split
    · exact Binary64.unsigned_ofNat 0
    · split <;> exact h
  unfold observe
  split
  · exact unsigned_push weight h next
  · split
    · exact h
    · exact unsigned_push weight (carried _) next

end Pace

namespace FrameWindow

theorem unsigned_sum {xs : List Float} (h : ∀ x ∈ xs, Unsigned x) : Unsigned (Quantity.sum xs) := by
  have steps : ∀ total : Float, Unsigned total → Unsigned (xs.foldl (· + ·) total) := by
    induction xs with
    | nil => exact fun _ ht => ht
    | cons x xs ih =>
      intro total ht
      exact ih (fun y hy => h y (.tail _ hy)) (total + x)
        (Binary64.unsigned_add ht (h x (.head _)))
  exact steps _ (Binary64.unsigned_ofNat 0)

theorem unsigned_average {w : FrameWindow Float} (h : ∀ x ∈ w.intervals, Unsigned x) :
    Unsigned w.average := by
  unfold average
  split
  · exact Binary64.unsigned_ofNat 0
  · exact Binary64.unsigned_div (unsigned_sum h) (Binary64.unsigned_ofNat _)

theorem mem_push {t : Tuning Float} {w : FrameWindow Float} {interval x : Float}
    (h : x ∈ (w.push t interval).intervals) : x ∈ w.intervals ∨ x = interval := by
  rw [push, Window.push_eq_drop] at h
  have listed := List.mem_of_mem_drop h
  rwa [List.mem_append, List.mem_singleton] at listed

theorem unsigned_push {t : Tuning Float} {w : FrameWindow Float} {interval : Float}
    (h : ∀ x ∈ w.intervals, Unsigned x) (measured : isMeasurement t interval = true) :
    ∀ x ∈ (w.push t interval).intervals, Unsigned x := by
  intro x hx
  rcases mem_push hx with old | rfl
  · exact h x old
  · exact Binary64.unsigned_of_pos ((isMeasurement_iff t x).mp measured).2.1

end FrameWindow

/-! ## What is published -/

namespace Planner

/-- A planner without minus signs, whose published speed is its estimate. -/
structure Exact (t : Tuning Float) (p : Planner Float) : Prop where
  tuned : p.tuning = t
  pace : Unsigned p.pace.pagesPerMinute
  intervals : ∀ x ∈ p.frames.intervals, Unsigned x
  speed : p.streams.readingSpeed.value = p.pace.pagesPerMinute
  average : Unsigned p.streams.frameInterval.value

variable {t : Tuning Float} {p : Planner Float}

theorem start_exact (t : Tuning Float) : (start t).Exact t where
  tuned := rfl
  pace := Binary64.unsigned_ofNat 0
  intervals := nofun
  speed := rfl
  average := Binary64.unsigned_ofNat 0

theorem Exact.turn (h : p.Exact t) (weight : Quantity.isWeight t.speedWeight = true)
    (now : Duration) (page pageCount : Count) : (p.turn now page pageCount).Exact t := by
  have pace : Unsigned (p.pace.observe p.tuning ⟨page, now⟩).pagesPerMinute := by
    rw [h.tuned]
    exact Pace.unsigned_observe weight h.pace _
  have shown : Unsigned p.streams.readingSpeed.value := by
    rw [h.speed]
    exact h.pace
  exact ⟨h.tuned, pace, h.intervals, Stream.value_publish_unsigned shown pace, h.average⟩

theorem Exact.replan (h : p.Exact t) : p.replan.Exact t := by
  rw [replan_frame]
  exact ⟨h.tuned, h.pace, h.intervals, h.speed, h.average⟩

theorem Exact.endLoad (h : p.Exact t) : p.endLoad.Exact t :=
  ⟨h.tuned, h.pace, nofun, h.speed, h.average⟩

theorem Exact.showPage (h : p.Exact t) (weight : Quantity.isWeight t.speedWeight = true)
    (now : Duration) (page pageCount : Count) : (p.showPage now page pageCount).Exact t :=
  showPage_induction h now (fun _ => h.turn weight now page pageCount) Exact.endLoad Exact.replan

theorem Exact.measure (h : p.Exact t) {interval : Float}
    (measured : FrameWindow.isMeasurement p.tuning interval = true) :
    (p.measure interval).Exact t := by
  have intervals := FrameWindow.unsigned_push h.intervals measured
  exact ⟨h.tuned, h.pace, intervals, h.speed,
    Stream.unsigned_publish h.average (FrameWindow.unsigned_average intervals)⟩

theorem Exact.overload (h : p.Exact t) (now : Duration) : (p.overload now).Exact t := by
  obtain ⟨_, _, eq⟩ := p.overload_frame now
  rw [eq]
  exact ⟨h.tuned, h.pace, h.intervals, h.speed, h.average⟩

theorem Exact.observeFrame (h : p.Exact t) (now : Duration) (interval : Float) :
    (p.observeFrame now interval).Exact t := by
  rw [observeFrame_eq]
  split
  · next measured =>
    split
    · exact (h.measure measured).overload now
    · exact h.measure measured
  · exact h

theorem Exact.observeTilt (h : p.Exact t) (acceleration : Axes Float) :
    (p.observeTilt acceleration).Exact t := by
  obtain ⟨_, _, _, _, eq, _⟩ := p.observeTilt_frame acceleration
  rw [eq]
  exact ⟨h.tuned, h.pace, h.intervals, h.speed, h.average⟩

/-- A reset publishes zero twice, exactly. -/
theorem Exact.reset (h : p.Exact t) : p.reset.Exact t := by
  have zero := Binary64.unsigned_ofNat 0
  have shown : Unsigned p.streams.readingSpeed.value := by
    rw [h.speed]
    exact h.pace
  exact ⟨h.tuned, zero, nofun, Stream.value_publish_unsigned shown zero,
    Stream.unsigned_publish h.average zero⟩

/-- **Every event keeps what is published exact.** -/
theorem apply_exact (h : p.Exact t) (weight : Quantity.isWeight t.speedWeight = true)
    (now : Duration) (event : PlannerEvent Float) : (p.apply now event).Exact t := by
  cases event with
  | page page pageCount => exact h.showPage weight now page pageCount
  | frame interval => exact h.observeFrame now interval
  | tilt acceleration => exact h.observeTilt acceleration
  | reset => exact h.reset

end Planner

theorem Tuning.validate_standard : (standard : Tuning Float).validate = .ok standard := by
  have rules : (standard : Tuning Float).fault? = none := by decide +kernel
  rw [validate, rules]

theorem TimedPlanner.run_exact {t : Tuning Float} (usable : t.validate = .ok t)
    (clock : Duration) (moves : List (PlannerMove Float)) :
    ((start t clock).run moves).planner.Exact t := by
  have weight := Tuning.isWeight_of_validate usable
  have steps : ∀ s : TimedPlanner Float, s.planner.Exact t → (s.run moves).planner.Exact t := by
    unfold run
    induction moves with
    | nil => exact fun _ h => h
    | cons move moves ih =>
      intro s h
      refine ih (s.step move) ?_
      cases move with
      | clock reading => exact h
      | event event => exact Planner.apply_exact h weight s.clock event
  exact steps _ (Planner.start_exact t)

end ReadAhead
