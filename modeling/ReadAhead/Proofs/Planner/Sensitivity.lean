import Mathlib.Data.Rat.Floor
import Mathlib.Tactic.Ring
import ReadAhead.Proofs.Numeric.Unrounded
import ReadAhead.Proofs.Planner.Plan
import ReadAhead.Proofs.Planner.Validation

/-!
  Sensitivity — how swipes follow the tilt of the device

  The readings of the accelerometer since the latest reset are smoothed axis by axis. The
  pitch of what they amount to deviates from that at which a device is held for reading,
  and the sensitivity to swipes is a function of this deviation alone.

  The formulas are read over an ordered field. What the pitch of a direction is, and
  the length of a reading, are left open.

  Runs in which a sum behind the reading speed leaves 64 bits are left out
  (`Proofs/Planner/Checked`).

  What is proved:
    1. `Tuning.sensitivityAt_eq` — the sensitivity at a deviation (`Tuning.sensitivityAt`),
       one in the dead zone, full at full tilt and on a straight line between, as one
       formula. `sensitivityAt_mono`, `sensitivityAt_between` — it grows with the deviation,
       and keeps to its range. `GravityFilter.sensitivity_eq` — the sensitivity at a pitch
       is that at its deviation.
    2. `Axes.amid_smooth`, `amid_readings` — smoothing stays between what was read, on
       each axis.
    3. `Planner.Level.apply` — an invariant of all events: the sensitivity published is
       that of the latest tilt.
    4. `sensitivity_follows_tilt` — so after any moves, the sensitivity published is the
       one at the deviation of the smoothed readings.
    5. `sensitivity_follows_tilt_half` (anti-vacuity) — a device tilted in two readings.
-/

namespace ReadAhead

theorem between_of_weight {K : Type} [Field K] [LinearOrder K] [IsStrictOrderedRing K] {weight : K}
    (pos : 0 < weight) (most : weight ≤ 1) (old new : K) :
    (old ≤ old + weight * (new - old) ∨ new ≤ old + weight * (new - old)) ∧
      (old + weight * (new - old) ≤ old ∨ old + weight * (new - old) ≤ new) := by
  rcases le_total old new with up | down
  · have way := mul_nonneg pos.le (sub_nonneg.mpr up)
    have less := mul_le_of_le_one_left (sub_nonneg.mpr up) most
    exact ⟨.inl (by linarith), .inr (by linarith)⟩
  · have way := mul_nonneg pos.le (sub_nonneg.mpr down)
    have less := mul_le_of_le_one_left (sub_nonneg.mpr down) most
    exact ⟨.inr (by linarith), .inl (by linarith)⟩

open scoped Unrounded

variable {K : Type} [Field K] [LinearOrder K] [FloorRing K] [Instruments K]

/-! ## The sensitivity at a deviation -/

/-- What the rules of a tuning say of tilt. -/
structure Tuning.TiltSound (t : Tuning K) : Prop where
  weight : 0 < t.tiltWeight ∧ t.tiltWeight ≤ 1
  /-- There is a way from the dead zone to full tilt. -/
  span : t.deadZone < t.fullTilt
  gain : 1 ≤ t.fullSensitivity

theorem Tuning.tiltSound_of_validate {t : Tuning K} (usable : t.validate = .ok t) :
    t.TiltSound := by
  have kept : ∀ rule ∈ (rules : List (String × (Tuning K → Bool))), rule.2 t = true :=
    fun _ listed => rule_of_validate usable listed
  simp only [rules, List.forall_mem_cons, Bool.and_eq_true, Bool.not_eq_true',
    decide_eq_false_iff_not] at kept
  obtain ⟨_, _, _, _, _, _, _, _, _, weight, _, _, ⟨_, beyond⟩, ⟨_, least⟩, _⟩ := kept
  rw [Unrounded.ofNat_one] at least
  exact ⟨(Unrounded.isWeight_iff _).mp weight, not_le.mp beyond, not_lt.mp least⟩

/-- The sensitivity at a deviation from the pitch at which a device is held for reading:
one in the dead zone, full from full tilt on, and on a straight line between. -/
def Tuning.sensitivityAt (t : Tuning K) (deviation : K) : K :=
  if deviation ≤ t.deadZone then 1
  else if t.fullTilt ≤ deviation then t.fullSensitivity
  else 1 + (deviation - t.deadZone) / (t.fullTilt - t.deadZone) * (t.fullSensitivity - 1)

/-- How far a deviation is on the way from the dead zone to full tilt, between zero and one. -/
def Tuning.tiltShare (t : Tuning K) (deviation : K) : K :=
  max 0 (min (max (deviation - t.deadZone) 0 / (t.fullTilt - t.deadZone)) 1)

variable [IsStrictOrderedRing K] {t : Tuning K}

namespace Tuning

omit [IsStrictOrderedRing K] in
theorem tiltShare_between (t : Tuning K) (deviation : K) :
    0 ≤ t.tiltShare deviation ∧ t.tiltShare deviation ≤ 1 :=
  ⟨le_max_left _ _, max_le zero_le_one (min_le_right _ _)⟩

theorem tiltShare_mono (sound : t.TiltSound) : Monotone t.tiltShare := by
  intro deviation deviation' more
  have further : max (deviation - t.deadZone) 0 ≤ max (deviation' - t.deadZone) 0 :=
    max_le_max_right 0 (sub_le_sub_right more _)
  have span : 0 ≤ t.fullTilt - t.deadZone := (sub_pos.mpr sound.span).le
  exact max_le_max_left 0 (min_le_min_right 1 (div_le_div_of_nonneg_right further span))

/-- The three pieces are one formula: cut off at both ends, the straight line goes on level. -/
theorem sensitivityAt_eq (sound : t.TiltSound) (deviation : K) :
    t.sensitivityAt deviation = 1 + t.tiltShare deviation * (t.fullSensitivity - 1) := by
  have span : 0 < t.fullTilt - t.deadZone := sub_pos.mpr sound.span
  rw [sensitivityAt, tiltShare]
  split
  · next dead =>
    rw [max_eq_right (sub_nonpos.mpr dead), zero_div, min_eq_left zero_le_one, max_self, zero_mul,
      add_zero]
  · next alive =>
    have beyond : 0 < deviation - t.deadZone := sub_pos.mpr (not_le.mp alive)
    rw [max_eq_left beyond.le]
    split
    · next full =>
      have whole : 1 ≤ (deviation - t.deadZone) / (t.fullTilt - t.deadZone) :=
        (one_le_div span).mpr (sub_le_sub_right full _)
      rw [min_eq_right whole, max_eq_right zero_le_one]
      ring
    · next short =>
      have less : (deviation - t.deadZone) / (t.fullTilt - t.deadZone) ≤ 1 :=
        (div_le_one span).mpr (sub_le_sub_right (not_le.mp short).le _)
      rw [min_eq_left less, max_eq_right (div_pos beyond span).le]

theorem sensitivityAt_between (sound : t.TiltSound) (deviation : K) :
    1 ≤ t.sensitivityAt deviation ∧ t.sensitivityAt deviation ≤ t.fullSensitivity := by
  have gain : 0 ≤ t.fullSensitivity - 1 := sub_nonneg.mpr sound.gain
  obtain ⟨nonneg, most⟩ := t.tiltShare_between deviation
  have part := mul_le_of_le_one_left gain most
  rw [sensitivityAt_eq sound]
  exact ⟨le_add_of_nonneg_right (mul_nonneg nonneg gain), by linarith⟩

/-- **The sensitivity grows with the deviation.** -/
theorem sensitivityAt_mono (sound : t.TiltSound) : Monotone t.sensitivityAt := by
  intro deviation deviation' more
  have gain : 0 ≤ t.fullSensitivity - 1 := sub_nonneg.mpr sound.gain
  rw [sensitivityAt_eq sound, sensitivityAt_eq sound]
  exact add_le_add_right (mul_le_mul_of_nonneg_right (tiltShare_mono sound more) gain) 1

end Tuning

namespace GravityFilter

theorem intensity_eq (t : Tuning K) (pitch : K) :
    intensity t pitch = t.tiltShare |pitch - t.neutralPitch| := by
  rw [intensity, Unrounded.clampUnit_eq, Unrounded.positivePart_eq]
  rfl

/-- **The sensitivity at a pitch** is that at its deviation, whatever the direction. -/
theorem sensitivity_eq (sound : t.TiltSound) (pitch : K) :
    sensitivity t (intensity t pitch) = t.sensitivityAt |pitch - t.neutralPitch| := by
  rw [sensitivity, Unrounded.ofNat_one, intensity_eq, Tuning.sensitivityAt_eq sound]

end GravityFilter

/-! ## Smoothed readings -/

/-- On each axis, some reading is no larger and some no smaller. -/
def Axes.Amid (readings : List (Axes K)) (v : Axes K) : Prop :=
  ∀ axis ∈ [Axes.x, Axes.y, Axes.z],
    (∃ low ∈ readings, axis low ≤ axis v) ∧ ∃ high ∈ readings, axis v ≤ axis high

namespace Axes

omit [IsStrictOrderedRing K] in
theorem amid_self (reading : Axes K) : reading.Amid [reading] :=
  fun _ _ => ⟨⟨reading, List.mem_cons_self, le_refl _⟩, ⟨reading, List.mem_cons_self, le_refl _⟩⟩

/-- **One more reading** takes what is smoothed no further than itself. -/
theorem amid_smooth (sound : t.TiltSound) {readings : List (Axes K)} {gravity : Axes K}
    (h : gravity.Amid readings) (reading : Axes K) :
    (GravityFilter.smooth t ⟨some gravity⟩ reading).Amid (readings ++ [reading]) := by
  intro axis listed
  have smoothed : axis (GravityFilter.smooth t ⟨some gravity⟩ reading)
      = axis gravity + t.tiltWeight * (axis reading - axis gravity) := by
    simp only [List.mem_cons, List.not_mem_nil, or_false] at listed
    rcases listed with rfl | rfl | rfl <;> rfl
  obtain ⟨⟨low, hlow, least⟩, high, hhigh, most⟩ := h axis listed
  obtain ⟨lower, upper⟩ :=
    between_of_weight sound.weight.1 sound.weight.2 (axis gravity) (axis reading)
  have latest : reading ∈ readings ++ [reading] := List.mem_append_right _ List.mem_cons_self
  rw [smoothed]
  constructor
  · rcases lower with older | newer
    · exact ⟨low, List.mem_append_left _ hlow, least.trans older⟩
    · exact ⟨reading, latest, newer⟩
  · rcases upper with older | newer
    · exact ⟨high, List.mem_append_left _ hhigh, older.trans most⟩
    · exact ⟨reading, latest, newer⟩

/-- **All that was read** is what the smoothed direction is amid, if anything was. -/
theorem amid_readings (sound : t.TiltSound) (readings : List (Axes K)) :
    match (readings.foldl (fun filter reading => GravityFilter.mk (some (filter.smooth t reading)))
      .initial).gravity with
    | none => readings = []
    | some gravity => gravity.Amid readings := by
  induction readings using List.reverseRecOn with
  | nil => rfl
  | append_singleton readings reading ih =>
    rw [List.foldl_concat]
    generalize readings.foldl (fun filter reading =>
      GravityFilter.mk (some (filter.smooth t reading))) .initial = filter at ih ⊢
    obtain ⟨_ | gravity⟩ := filter
    · have first : readings = [] := ih
      rw [first]
      exact amid_self reading
    · exact amid_smooth sound ih reading

end Axes

/-! ## What is published -/

namespace Planner

/-- The sensitivity published is that of the latest tilt. -/
def Level (p : Planner K) : Prop :=
  p.streams.sensitivity.value = GravityFilter.sensitivity p.tuning p.intensity

omit [IsStrictOrderedRing K]

theorem Level.showPage {p : Planner K} (h : p.Level) (now : Duration) (page pageCount : Count) :
    (p.showPage now page pageCount).Level := by
  refine showPage_induction h now (fun _ => h) (fun h => h) fun {p} h => ?_
  rw [replan_frame]
  exact h

theorem Level.observeFrame {p : Planner K} (h : p.Level) (now : Duration) (interval : K) :
    (p.observeFrame now interval).Level := by
  rcases p.observeFrame_cases now interval with ⟨_, _, _, eq⟩ | ⟨_, frames, stream, eq⟩
  · rw [eq]
    exact h
  · obtain ⟨_, _, frame⟩ := overload_frame { p with
      frames := frames, streams := { p.streams with frameInterval := stream } } now
    rw [eq, frame]
    exact h

theorem Level.observeTilt {p : Planner K} (h : p.Level) (acceleration : Axes K) :
    (p.observeTilt acceleration).Level := by
  rw [observeTilt_eq]
  cases usable : GravityFilter.isUsable acceleration with
  | false => simpa [GravityFilter.observe, usable] using h
  | true =>
    simp only [GravityFilter.observe, usable, if_true]
    split
    · exact Stream.value_publish _ _
    · rw [replan_frame]
      exact Stream.value_publish _ _

theorem sensitivity_still (t : Tuning K) : GravityFilter.sensitivity t (Quantity.ofNat 0) = 1 := by
  rw [GravityFilter.sensitivity, Unrounded.ofNat_zero, Unrounded.ofNat_one]
  exact (congrArg _ (zero_mul _)).trans (add_zero 1)

/-- **Every event keeps the sensitivity published that of the latest tilt.** -/
theorem Level.apply {p : Planner K} (h : p.Level) (now : Duration) (event : PlannerEvent K) :
    (p.apply now event).Level := by
  cases event with
  | page page pageCount => exact h.showPage now page pageCount
  | frame interval => exact h.observeFrame now interval
  | tilt acceleration => exact h.observeTilt acceleration
  | reset =>
    exact (Stream.value_publish _ _).trans
      (Unrounded.ofNat_one.trans (sensitivity_still p.tuning).symm)

end Planner

namespace TimedPlanner

omit [IsStrictOrderedRing K] in
theorem run_level (t : Tuning K) (clock : Duration) (moves : List (PlannerMove K)) :
    ((start t clock).run moves).planner.Level := by
  induction moves using List.reverseRecOn with
  | nil => exact Unrounded.ofNat_one.trans (Planner.sensitivity_still t).symm
  | append_singleton moves move ih =>
    rw [run_concat]
    cases move with
    | clock reading => exact ih
    | event event => exact ih.apply _ event

/-- **The sensitivity to swipes follows the tilt of the device.** Over an ordered field,
with a tuning that is accepted, after any moves: the sensitivity published is between one
and that at full tilt. It is one if nothing was read since the latest reset. Otherwise the
readings since then are smoothed to a direction that on each axis is between the smallest
and the largest of them, and the sensitivity is the one at the deviation of its pitch: one
in the dead zone, full from full tilt on, and on a straight line between. So it grows with
the deviation, and is the same to both sides. -/
theorem sensitivity_follows_tilt (t : Tuning K) (usable : t.validate = .ok t) (clock : Duration)
    (moves : List (PlannerMove K)) :
    let p := ((start t clock).run moves).planner
    let sensitivity := p.output.sensitivity
    let readings := (sinceReset moves).filterMap PlannerMove.reading?
    (1 ≤ sensitivity ∧ sensitivity ≤ t.fullSensitivity) ∧
    p.gravity = smoothed t moves ∧
    (readings = [] → sensitivity = 1) ∧
    (readings ≠ [] → ∃ gravity, p.gravity.gravity = some gravity ∧ gravity.Amid readings ∧
      sensitivity = t.sensitivityAt |Instruments.pitchDegrees gravity - t.neutralPitch|) ∧
    Monotone t.sensitivityAt ∧
    ∀ turn, GravityFilter.sensitivity t (GravityFilter.intensity t (t.neutralPitch + turn))
      = GravityFilter.sensitivity t (GravityFilter.intensity t (t.neutralPitch - turn)) := by
  intro p sensitivity readings
  have sound := Tuning.tiltSound_of_validate usable
  obtain ⟨_, recalls⟩ := run_recalls t clock moves
  have level : sensitivity = GravityFilter.sensitivity t (lastIntensity t moves) := by
    refine (run_level t clock moves).trans ?_
    rw [recalls.intensity, recalls.tuned]
  have amid := Axes.amid_readings sound readings
  rw [show readings.foldl _ _ = smoothed t moves from rfl] at amid
  have published : match (smoothed t moves).gravity with
      | none => sensitivity = 1
      | some gravity => sensitivity
          = t.sensitivityAt |Instruments.pitchDegrees gravity - t.neutralPitch| := by
    rw [level, lastIntensity]
    cases (smoothed t moves).gravity with
    | none => exact Planner.sensitivity_still t
    | some gravity => exact GravityFilter.sensitivity_eq sound _
  refine ⟨?_, recalls.gravity, ?_, ?_, Tuning.sensitivityAt_mono sound, fun turn => ?_⟩
  · cases direction : (smoothed t moves).gravity with
    | none =>
      rw [direction] at published
      rw [show sensitivity = 1 from published]
      exact ⟨le_refl 1, sound.gain⟩
    | some gravity =>
      rw [direction] at published
      rw [show sensitivity = _ from published]
      exact Tuning.sensitivityAt_between sound _
  · intro unread
    have still : (smoothed t moves).gravity = none := by
      rw [smoothed, show (sinceReset moves).filterMap PlannerMove.reading? = [] from unread]
      rfl
    rw [still] at published
    exact published
  · intro read
    rw [recalls.gravity]
    cases direction : (smoothed t moves).gravity with
    | none =>
      rw [direction] at amid
      exact absurd amid read
    | some gravity =>
      rw [direction] at amid published
      exact ⟨gravity, rfl, amid, published⟩
  · rw [GravityFilter.sensitivity_eq sound, GravityFilter.sensitivity_eq sound,
      add_sub_cancel_left, sub_sub_cancel_left, abs_neg]

/-- **Not vacuous**: a device held for reading, then a jolt that smoothing takes half the
way from the dead zone to full tilt; after a reset, there is no tilt. -/
theorem sensitivity_follows_tilt_half :
    letI : Instruments ℚ := ⟨id, Axes.y⟩
    let t : Tuning ℚ := .standard
    let held : PlannerMove ℚ := .event (.tilt ⟨0, 40, 0⟩)
    let jolt : PlannerMove ℚ := .event (.tilt ⟨0, 355 / 2, 0⟩)
    let sensitivity (moves : List (PlannerMove ℚ)) : ℚ :=
      ((start t 0).run moves).planner.output.sensitivity
    sensitivity [held] = 1 ∧ sensitivity [held, jolt] = 3 / 2 ∧
    sensitivity [held, jolt, .event .reset] = 1 := by
  intro t held jolt sensitivity
  let _ : Instruments ℚ := ⟨id, Axes.y⟩
  have usable : t.validate = .ok t := Tuning.validate_of_rules (by decide +kernel)
  have follows (moves : List (PlannerMove ℚ)) := sensitivity_follows_tilt t usable 0 moves
  have published {moves : List (PlannerMove ℚ)} (gravity : Axes ℚ)
      (read : (sinceReset moves).filterMap PlannerMove.reading? ≠ [])
      (direction : (smoothed t moves).gravity = some gravity) :
      sensitivity moves = t.sensitivityAt |gravity.y - 40| := by
    obtain ⟨_, smooth, _, tilted, _⟩ := follows moves
    obtain ⟨gravity', direction', _, same⟩ := tilted read
    rw [smooth, direction, Option.some_inj] at direction'
    rw [direction']
    exact same
  refine ⟨?_, ?_, (follows _).2.2.1 (by decide +kernel)⟩
  · rw [published ⟨0, 40, 0⟩ (by decide +kernel) (by decide +kernel)]
    decide +kernel
  · rw [published ⟨0, 135 / 2, 0⟩ (by decide +kernel) (by decide +kernel)]
    decide +kernel

end TimedPlanner

end ReadAhead
