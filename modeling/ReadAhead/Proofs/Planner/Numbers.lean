import ReadAhead.Proofs.Numeric.Number
import ReadAhead.Proofs.Planner.Published
import ReadAhead.Proofs.Planner.Sums

/-!
  Numbers published — no output ever is something that is no number

  A stream tells of a change where the value published is not equal to the one before,
  and what is no number is not equal to itself. So it matters that no output is of that
  kind. What is measured is checked at the door, but estimates could still overflow:
  a zero weight times an infinite estimate, or an infinite sum over an infinite count.
  The rules of a tuning, and the sizes of counts, exclude all that.

  Runs in which a sum behind the reading speed leaves 64 bits are left out
  (`Proofs/Planner/Checked`).

  What is proved:
    1. `Tuning.sound_of_validate` — a tuning that is accepted leaves the divisors above
       zero and the factors finite.
    2. `Pace.Numeric.observe`, `FrameWindow.isNumber_average`,
       `GravityFilter.isNumber_sensitivity` — the three estimates are numbers.
    3. `run_numeric` — so in every run all that is published is a number, and the
       sensitivity published is that of the latest tilt.
-/

namespace ReadAhead

open Binary64 (IsNumber Reaches Stays Unsigned)

/-! ## Tunings -/

/-- What the rules of a tuning are good for. -/
structure Tuning.Sound (t : Tuning Float) : Prop where
  weight : Quantity.isWeight t.speedWeight = true
  /-- The way from the dead zone to full tilt. -/
  span : Quantity.isPositive (t.fullTilt - t.deadZone) = true
  /-- How much sensitivity there is to gain. -/
  gain : (t.fullSensitivity - Quantity.ofNat 1).isFinite = true

theorem Tuning.sound_of_validate {t : Tuning Float} (usable : t.validate = .ok t) : t.Sound := by
  have kept : ∀ rule ∈ (rules : List (String × (Tuning Float → Bool))), rule.2 t = true :=
    fun _ listed => rule_of_validate usable listed
  simp only [rules, List.forall_mem_cons, Bool.and_eq_true, Bool.not_eq_true',
    decide_eq_false_iff_not] at kept
  obtain ⟨_, _, _, _, _, _, _, _, _, _, _, ⟨dead, nonneg⟩, ⟨full, beyond⟩, ⟨gain, least⟩, _⟩ := kept
  have one : Quantity.isPositive (Quantity.ofNat 1 : Float) = true := by decide
  have unit := Binary64.isFinite_of_isPositive one
  have wider : t.deadZone < t.fullTilt :=
    (Binary64.isNumber_of_isFinite full).lt_of_not_le (Binary64.isNumber_of_isFinite dead) beyond
  have above : Quantity.ofNat 1 ≤ t.fullSensitivity :=
    (Binary64.isNumber_of_isFinite gain).le_of_not_lt (Binary64.isNumber_of_isFinite unit) least
  exact ⟨isWeight_of_validate usable, Binary64.isPositive_sub full dead nonneg wider,
    Binary64.isFinite_sub gain unit (by decide) above⟩

/-! ## The reading speed -/

namespace Pace

theorem distance_lt {turns : List PageTurn} (room : turns.length ≤ UInt64.size) :
    distance turns < 2 ^ 128 := by
  have gap (a b : PageTurn) : 0 ≤ a.gap b ∧ a.gap b ≤ 2 ^ 64 - 1 :=
    ⟨Nat.zero_le _, Nat.le_sub_one_of_lt (Count.distance a.page b.page).toNat_lt⟩
  have near : turns.IsChain _ := (List.pairwise_of_forall gap).isChain
  calc distance turns
    _ ≤ (turns.length - 1) * (2 ^ 64 - 1) := (distance_between near).2
    _ ≤ 2 ^ 64 * (2 ^ 64 - 1) := Nat.mul_le_mul_right _ (by unfold UInt64.size at room; omega)
    _ < 2 ^ 128 := by decide

theorem reaches_inSeconds {d : Duration} (pos : 0 < d) : Reaches (-33) (inSeconds d) := by
  have nanoseconds : Duration.perSecond < 2 ^ 30 := by decide
  have unit : Quantity.isPositive (Quantity.ofNat Duration.perSecond : Float) = true :=
    Binary64.isPositive_ofNat (by decide) nanoseconds (by decide)
  have fraction := Binary64.isNumber_div (Binary64.isNumber_ofNat d.subsecond) unit
  unfold inSeconds
  rcases Nat.eq_zero_or_pos d.seconds with zero | long
  · have short : 0 < d.subsecond := by
      have parts := Nat.div_add_mod d Duration.perSecond
      rw [show d / Duration.perSecond = 0 from zero, Nat.mul_zero, Nat.zero_add] at parts
      rwa [Duration.subsecond, parts]
    rw [zero]
    exact Binary64.reaches_zero_add (Binary64.reaches_div (Binary64.reaches_ofNat short)
      (Binary64.reaches_ofNat (by decide)) (Binary64.stays_ofNat nanoseconds (by decide)) (by decide))
  · have sign := Binary64.unsigned_div (Binary64.unsigned_ofNat d.subsecond)
      (Binary64.unsigned_ofNat Duration.perSecond)
    exact (Binary64.reaches_add (Binary64.reaches_ofNat long) fraction sign (by decide)).mono
      (by decide)

theorem elapsed_pos {turns : List PageTurn} {d : Duration} (h : elapsed? turns = some d) :
    0 < d := by
  simp only [elapsed?, Option.bind_eq_bind, Option.bind_eq_some_iff] at h
  obtain ⟨first, _, last, _, span⟩ := h
  split at span
  · next later =>
    cases span
    exact Nat.sub_pos_of_lt later
  · cases span

/-- What is measured over a window of turns is far from infinite: at most all the pages
that the window can cover, in a nanosecond. -/
theorem stays_measured {turns : List PageTurn} (room : turns.length ≤ UInt64.size) {speed : Float}
    (h : measured? turns = some speed) : Stays 174 speed := by
  obtain ⟨d, elapsed, rfl⟩ := Option.map_eq_some_iff.mp h
  have pages := Binary64.stays_ofNat (distance_lt room) (by decide)
  have minutes : Stays ((6 : Nat) + 2) (Quantity.ofNat 60) :=
    Binary64.stays_ofNat (by decide) (by decide)
  have product := Binary64.stays_mul pages minutes (by decide) (by decide)
  exact Binary64.stays_div product (reaches_inSeconds (elapsed_pos elapsed)) (by decide) (by decide)

variable {t : Tuning Float} {s : Pace Float}

/-- An estimate of the reading speed that is a number. Only where the newest measurement
has all the weight, it need be finite: then the old estimate has none, and a zero times
an infinity is no number. -/
structure Numeric (t : Tuning Float) (s : Pace Float) : Prop where
  unsigned : Unsigned s.pagesPerMinute
  number : IsNumber s.pagesPerMinute
  finite : t.speedWeight = Quantity.ofNat 1 → s.pagesPerMinute.isFinite = true

theorem isFinite_smooth (full : t.speedWeight = Quantity.ofNat 1) {estimate measured : Float}
    (he : estimate.isFinite = true) (hm : Stays 174 measured) :
    (smooth t estimate measured).isFinite = true := by
  have unit : Stays ((1 : Nat) + 2) (Quantity.ofNat 1) := Binary64.stays_ofNat (by decide) (by decide)
  have nothing : (Quantity.ofNat 1 - Quantity.ofNat 1 : Float) = Quantity.ofNat 0 := by rfl
  unfold smooth
  split
  · obtain ⟨_, zero⟩ := Binary64.zero_mul_finite he
    rw [full, nothing]
    exact Binary64.isFinite_add_zero (Binary64.stays_mul unit hm (by decide) (by decide)).isFinite zero
  · exact hm.isFinite

theorem isNumber_smooth (weight : Quantity.isWeight t.speedWeight = true) (h : s.Numeric t)
    {measured : Float} (hm : Stays 174 measured) (sign : Unsigned measured) :
    IsNumber (smooth t s.pagesPerMinute measured) := by
  have positive : Quantity.isPositive t.speedWeight = true := (Bool.and_eq_true_iff.mp weight).1
  have most : t.speedWeight ≤ Quantity.ofNat 1 :=
    of_decide_eq_true (Bool.and_eq_true_iff.mp weight).2
  have above : Quantity.ofNat 0 < t.speedWeight :=
    of_decide_eq_true (Bool.and_eq_true_iff.mp positive).2
  have number := Binary64.isNumber_of_isFinite hm.isFinite
  rcases Binary64.lt_or_beq_of_le most with less | equal
  · have rest : Quantity.isPositive (Quantity.ofNat 1 - t.speedWeight) = true :=
      Binary64.isPositive_sub (by decide) (Binary64.isFinite_of_isPositive positive)
        (Binary64.not_lt_zero_of_isPositive positive) less
    unfold smooth
    split
    · exact Binary64.isNumber_add_unsigned (Binary64.isNumber_mul positive number)
        (Binary64.isNumber_mul rest h.number)
        (Binary64.unsigned_mul (Binary64.unsigned_of_pos above) sign)
        (Binary64.unsigned_mul (Binary64.unsigned_complement above most) h.unsigned)
    · exact number
  · have full := Binary64.eq_of_beq_pos equal (by decide)
    exact Binary64.isNumber_of_isFinite (isFinite_smooth full (h.finite full) hm)

theorem Numeric.push (weight : Quantity.isWeight t.speedWeight = true) (h : s.Numeric t)
    (next : PageTurn) : (s.push t next).Numeric t := by
  have unsigned := unsigned_push weight h.unsigned next
  unfold Pace.push at unsigned ⊢
  dsimp only at unsigned ⊢
  split
  · exact ⟨h.unsigned, h.number, h.finite⟩
  · next measured eq =>
    have room : (Window.push (capacity t) s.turns next).length ≤ UInt64.size :=
      Nat.le_trans (Window.length_push_le ..) t.speedWindow.toNat_lt
    have bound := stays_measured room eq
    rw [eq] at unsigned
    exact ⟨unsigned, isNumber_smooth weight h bound (unsigned_measured eq),
      fun full => isFinite_smooth full (h.finite full) bound⟩

theorem initial_numeric : (initial : Pace Float).Numeric t where
  unsigned := Binary64.unsigned_ofNat 0
  number := Binary64.isNumber_ofNat 0
  finite _ := rfl

theorem Numeric.carry (h : s.Numeric t) (last next : PageTurn) :
    (s.carry t last next).Numeric t := by
  unfold Pace.carry
  split
  · exact initial_numeric
  · split
    · exact ⟨h.unsigned, h.number, h.finite⟩
    · exact h

/-- The estimate of the reading speed is a number. -/
theorem Numeric.observe (weight : Quantity.isWeight t.speedWeight = true) (h : s.Numeric t)
    (next : PageTurn) : (s.observe t next).Numeric t := by
  unfold Pace.observe
  split
  · exact h.push weight next
  · split
    · exact h
    · exact (h.carry _ next).push weight next

end Pace

/-! ## The average frame interval -/

namespace FrameWindow

theorem isNumber_sum {xs : List Float} (h : ∀ x ∈ xs, IsNumber x ∧ Unsigned x) :
    IsNumber (Quantity.sum xs) := by
  have steps : ∀ total : Float, IsNumber total → Unsigned total →
      IsNumber (xs.foldl (· + ·) total) := by
    induction xs with
    | nil => exact fun _ ht _ => ht
    | cons x xs ih =>
      intro total ht sign
      obtain ⟨hx, sign_x⟩ := h x (.head _)
      exact ih (fun y hy => h y (.tail _ hy)) (total + x)
        (Binary64.isNumber_add_unsigned ht hx sign sign_x) (Binary64.unsigned_add sign sign_x)
  exact steps _ rfl (Binary64.unsigned_ofNat 0)

theorem isNumber_average {w : FrameWindow Float} (h : ∀ x ∈ w.intervals, IsNumber x ∧ Unsigned x)
    (room : w.intervals.length < UInt64.size) : IsNumber w.average := by
  unfold average
  split
  · rfl
  · next nonempty =>
    have counted : 0 < w.intervals.length :=
      List.length_pos_iff.mpr fun empty => nonempty (List.isEmpty_iff.mpr empty)
    exact Binary64.isNumber_div (isNumber_sum h)
      (Binary64.isPositive_ofNat (k := 64) counted room (by decide))

end FrameWindow

/-! ## Tilt -/

namespace GravityFilter

theorem isNumber_positivePart (x : Float) : IsNumber (Quantity.positivePart x) := by
  unfold Quantity.positivePart
  split
  · next above => exact Binary64.isNumber_of_pos above
  · rfl

theorem isFinite_clampUnit {x : Float} (h : IsNumber x) : (Quantity.clampUnit x).isFinite = true := by
  unfold Quantity.clampUnit
  split
  · rfl
  · next nonneg =>
    split
    · rfl
    · next least =>
      show x.toModel.unpack.isFinite = true
      unfold IsNumber at h
      rw [Binary64.lt_iff] at nonneg least
      cases unpacked : x.toModel.unpack with
      | zero | finite => rfl
      | notANumber =>
        rw [unpacked] at h
        cases h
      | infinity s =>
        rw [unpacked] at nonneg least
        cases s with
        | negative => exact absurd rfl nonneg
        | positive => exact absurd rfl least

variable {t : Tuning Float}

theorem isFinite_intensity (sound : t.Sound) (pitch : Float) :
    (intensity t pitch).isFinite = true :=
  isFinite_clampUnit (Binary64.isNumber_div (isNumber_positivePart _) sound.span)

/-- The sensitivity is a number, whatever the pitch is: even if that is none. -/
theorem isNumber_sensitivity (sound : t.Sound) {intensity : Float}
    (finite : intensity.isFinite = true) : IsNumber (sensitivity t intensity) :=
  Binary64.isNumber_add_finite (by decide) (Binary64.isNumber_mul_finite finite sound.gain)

theorem sensitivity_still (sound : t.Sound) :
    sensitivity t (Quantity.ofNat 0) = Quantity.ofNat 1 := by
  obtain ⟨s, zero⟩ := Binary64.zero_mul_finite sound.gain
  refine Binary64.eq_of_unpack ?_
  show Binary64.repack (Float.Model.UnpackedFloat.add .binary64
    (Quantity.ofNat 1 : Float).toModel.unpack
    (Quantity.ofNat 0 * (t.fullSensitivity - Quantity.ofNat 1)).toModel.unpack) = _
  rw [zero]
  cases s <;> rfl

/-- What a reading amounts to: an intensity, and the sensitivity that goes with it. -/
theorem of_observe (sound : t.Sound) {f gravity : GravityFilter Float} {raw : Axes Float}
    {tilt : Tilt Float} (h : f.observe t raw = some (tilt, gravity)) :
    tilt.intensity.isFinite = true ∧ tilt.sensitivity = sensitivity t tilt.intensity := by
  unfold observe at h
  split at h
  · cases h
    exact ⟨isFinite_intensity sound _, rfl⟩
  · cases h

end GravityFilter

/-! ## What is published -/

theorem Stream.isNumber_publish {s : Stream Float} {value : Float} (hs : IsNumber s.value)
    (hv : IsNumber value) : IsNumber (s.publish value).value := by
  unfold publish
  split
  · exact hs
  · exact hv

theorem Stream.beq_publish {s : Stream Float} {value : Float} (hv : IsNumber value) :
    ((s.publish value).value == value) = true := by
  rcases s.value_publish_or value with same | equal
  · rw [same]
    exact hv.beq_self
  · exact equal

namespace Planner

/-- A planner all of whose estimates and outputs are numbers, whose published sensitivity
is that of the latest tilt. -/
structure Numeric (t : Tuning Float) (p : Planner Float) : Prop where
  exact : p.Exact t
  pace : p.pace.Numeric t
  intervals : ∀ x ∈ p.frames.intervals, IsNumber x
  sensitivity : IsNumber p.streams.sensitivity.value
  average : IsNumber p.streams.frameInterval.value
  tilted : (p.streams.sensitivity.value == GravityFilter.sensitivity t p.intensity) = true

variable {t : Tuning Float} {p : Planner Float}

theorem Numeric.speed (h : p.Numeric t) : IsNumber p.streams.readingSpeed.value := by
  rw [h.exact.speed]
  exact h.pace.number

theorem start_numeric (sound : t.Sound) : (start t).Numeric t where
  exact := start_exact t
  pace := Pace.initial_numeric
  intervals := nofun
  sensitivity := Binary64.isNumber_ofNat 1
  average := Binary64.isNumber_ofNat 0
  tilted := by
    show (Quantity.ofNat 1 == GravityFilter.sensitivity t (Quantity.ofNat 0)) = true
    rw [GravityFilter.sensitivity_still sound]
    rfl

theorem Numeric.turn (h : p.Numeric t) (sound : t.Sound) (now : Duration) (page pageCount : Count) :
    (p.turn now page pageCount).Numeric t := by
  have pace : (p.pace.observe p.tuning ⟨page, now⟩).Numeric t := by
    rw [h.exact.tuned]
    exact h.pace.observe sound.weight _
  exact ⟨h.exact.turn sound.weight now page pageCount, pace, h.intervals, h.sensitivity, h.average,
    h.tilted⟩

theorem Numeric.replan (h : p.Numeric t) : p.replan.Numeric t := by
  have exact := h.exact.replan
  rw [replan_frame] at exact ⊢
  exact ⟨exact, h.pace, h.intervals, h.sensitivity, h.average, h.tilted⟩

theorem Numeric.endLoad (h : p.Numeric t) : p.endLoad.Numeric t :=
  ⟨h.exact.endLoad, h.pace, nofun, h.sensitivity, h.average, h.tilted⟩

theorem Numeric.showPage (h : p.Numeric t) (sound : t.Sound) (now : Duration)
    (page pageCount : Count) : (p.showPage now page pageCount).Numeric t :=
  showPage_induction h now (fun _ => h.turn sound now page pageCount) Numeric.endLoad Numeric.replan

theorem Numeric.measure (h : p.Numeric t) {interval : Float}
    (measured : FrameWindow.isMeasurement p.tuning interval = true) :
    (p.measure interval).Numeric t := by
  have exact := h.exact.measure measured
  have finite := ((FrameWindow.isMeasurement_iff p.tuning interval).mp measured).1
  have intervals : ∀ x ∈ (p.frames.push p.tuning interval).intervals, IsNumber x := by
    intro x hx
    rcases FrameWindow.mem_push hx with old | rfl
    · exact h.intervals x old
    · exact Binary64.isNumber_of_isFinite finite
  have room : (p.frames.push p.tuning interval).intervals.length < UInt64.size :=
    Nat.lt_of_le_of_lt (Window.length_push_le ..) p.tuning.frameWindow.toNat_lt
  have average := FrameWindow.isNumber_average
    (fun x hx => ⟨intervals x hx, exact.intervals x hx⟩) room
  exact ⟨exact, h.pace, intervals, h.sensitivity, Stream.isNumber_publish h.average average, h.tilted⟩

theorem Numeric.overload (h : p.Numeric t) (now : Duration) : (p.overload now).Numeric t := by
  have exact := h.exact.overload now
  obtain ⟨_, _, eq⟩ := p.overload_frame now
  rw [eq] at exact ⊢
  exact ⟨exact, h.pace, h.intervals, h.sensitivity, h.average, h.tilted⟩

theorem Numeric.observeFrame (h : p.Numeric t) (now : Duration) (interval : Float) :
    (p.observeFrame now interval).Numeric t := by
  rw [observeFrame_eq]
  split
  · next measured =>
    split
    · exact (h.measure measured).overload now
    · exact h.measure measured
  · exact h

theorem Numeric.incline (h : p.Numeric t) {tilt : Tilt Float} (number : IsNumber tilt.sensitivity)
    (level : tilt.sensitivity = GravityFilter.sensitivity t tilt.intensity)
    (gravity : GravityFilter Float) : (p.incline tilt gravity).Numeric t where
  exact := ⟨h.exact.tuned, h.exact.pace, h.exact.intervals, h.exact.speed, h.exact.average⟩
  pace := h.pace
  intervals := h.intervals
  sensitivity := Stream.isNumber_publish h.sensitivity number
  average := h.average
  tilted := level ▸ Stream.beq_publish number

theorem Numeric.observeTilt (h : p.Numeric t) (sound : t.Sound) (acceleration : Axes Float) :
    (p.observeTilt acceleration).Numeric t := by
  rw [observeTilt_eq]
  split
  · exact h
  · next tilt gravity accepted =>
    rw [h.exact.tuned] at accepted
    obtain ⟨finite, level⟩ := GravityFilter.of_observe sound accepted
    have number : IsNumber tilt.sensitivity := by
      rw [level]
      exact GravityFilter.isNumber_sensitivity sound finite
    have inclined := h.incline number level gravity
    split
    · exact inclined
    · exact inclined.replan

theorem Numeric.reset (h : p.Numeric t) (sound : t.Sound) : p.reset.Numeric t where
  exact := h.exact.reset
  pace := Pace.initial_numeric
  intervals := nofun
  sensitivity := Stream.isNumber_publish h.sensitivity (Binary64.isNumber_ofNat 1)
  average := Stream.isNumber_publish h.average (Binary64.isNumber_ofNat 0)
  tilted := GravityFilter.sensitivity_still sound ▸ Stream.beq_publish (Binary64.isNumber_ofNat 1)

/-- **Every event publishes numbers.** -/
theorem apply_numeric (h : p.Numeric t) (sound : t.Sound) (now : Duration)
    (event : PlannerEvent Float) : (p.apply now event).Numeric t := by
  cases event with
  | page page pageCount => exact h.showPage sound now page pageCount
  | frame interval => exact h.observeFrame now interval
  | tilt acceleration => exact h.observeTilt sound acceleration
  | reset => exact h.reset sound

end Planner

theorem TimedPlanner.step_numeric {t : Tuning Float} (sound : t.Sound) {s : TimedPlanner Float}
    (h : s.planner.Numeric t) (move : PlannerMove Float) : (s.step move).planner.Numeric t := by
  cases move with
  | clock reading => exact h
  | event event => exact Planner.apply_numeric h sound s.clock event

/-- **Every run publishes numbers.** -/
theorem TimedPlanner.run_numeric {t : Tuning Float} (sound : t.Sound) (clock : Duration)
    (moves : List (PlannerMove Float)) : ((start t clock).run moves).planner.Numeric t := by
  have steps : ∀ s : TimedPlanner Float, s.planner.Numeric t → (s.run moves).planner.Numeric t := by
    unfold run
    induction moves with
    | nil => exact fun _ h => h
    | cons move moves ih => exact fun s h => ih (s.step move) (step_numeric sound h move)
  exact steps _ (Planner.start_numeric sound)

end ReadAhead
