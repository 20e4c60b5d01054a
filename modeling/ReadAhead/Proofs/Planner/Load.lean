import ReadAhead.Numeric.Binary64
import ReadAhead.Planner.State

/-!
  Load — when the screen is under load, and what ends it

  A planner has no clock of its own, so it is put beside one here
  (`TimedPlanner`). The clock may be moved forward and back, and the planner is
  handed events at whatever it shows. Of the past, only the moment of the latest
  frame that was judged an overload is kept, by whoever watches and not by the
  planner.

  Runs in which a sum behind the reading speed leaves 64 bits are left out
  (`Proofs/Planner/Checked`).

  What is proved:
    1. `showPage_eq`, `observeFrame_eq`, `observeTilt_eq` — what each event does, told
       by steps of their own; `underLoad_apply` — what it does to the load.
    2. `step_watched` — an invariant of all steps: the output says whether there
       is a load, nothing is to be prefetched under load, and the moment that
       the planner remembers under load is that of the latest overload.
    3. `load_ends` — under load, exactly a reset and a page change after the
       cooldown end it; every overload restarts the cooldown; and page changes
       go on to update position and speed.
    4. `load_ends_standard` (anti-vacuity) — a load that two page changes find, one
       before the cooldown has passed and one after.
-/

namespace ReadAhead

variable {α : Type} [Quantity α]

namespace Planner

/-- Whether an event is a frame that is judged an overload. -/
def isOverload (p : Planner α) : PlannerEvent α → Bool
  | .frame interval => (p.frames.observe p.tuning interval).1 == .overloaded
  | _ => false

/-! ## One event -/

theorem replan_frame (p : Planner α) :
    p.replan = { p with streams := { p.streams with targets := p.replan.streams.targets } } := by
  unfold replan
  split <;> rfl

theorem observeFrame_cases (p : Planner α) (now : Duration) (interval : α) :
    (p.isOverload (.frame interval) = false ∧
      ∃ frames stream, p.observeFrame now interval
        = { p with frames := frames, streams := { p.streams with frameInterval := stream } }) ∨
    (p.isOverload (.frame interval) = true ∧
      ∃ frames stream, p.observeFrame now interval
        = overload { p with
            frames := frames, streams := { p.streams with frameInterval := stream } } now) := by
  simp only [observeFrame, isOverload]
  cases p.frames.observe p.tuning interval with
  | mk load frames =>
    cases load with
    | discarded => exact .inl ⟨rfl, p.frames, p.streams.frameInterval, rfl⟩
    | smooth => exact .inl ⟨rfl, frames, _, rfl⟩
    | overloaded => exact .inr ⟨rfl, frames, _, rfl⟩

theorem observeTilt_frame (p : Planner α) (acceleration : Axes α) :
    ∃ gravity intensity sensitivity targets, p.observeTilt acceleration = { p with
      gravity := gravity, intensity := intensity,
      streams := { p.streams with sensitivity := sensitivity, targets := targets } } ∧
      (p.underLoad = true → targets = p.streams.targets) := by
  unfold observeTilt
  split
  · exact ⟨p.gravity, p.intensity, p.streams.sensitivity, p.streams.targets, rfl, fun _ => rfl⟩
  · dsimp only
    split
    · exact ⟨_, _, _, p.streams.targets, rfl, fun _ => rfl⟩
    · next calm =>
      rw [replan_frame]
      exact ⟨_, _, _, _, rfl, fun loaded => absurd loaded calm⟩

/-- A page turn, before it is decided whether to plan. -/
def turn (p : Planner α) (now : Duration) (page pageCount : Count) : Planner α :=
  { p with
    position := some ⟨page, pageCount⟩
    pace := p.pace.observe p.tuning ⟨page, now⟩
    streams :=
      { p.streams with
        readingSpeed := p.streams.readingSpeed.publish
          (p.pace.observe p.tuning ⟨page, now⟩).pagesPerMinute } }

/-- A page outside the document changes nothing; one inside it is a turn, which is
planned for unless a load goes on. -/
theorem showPage_eq (p : Planner α) (now : Duration) (page pageCount : Count) :
    p.showPage now page pageCount =
      if pageCount ≤ page then p
      else if p.underLoad then
        if p.isCooling now then p.turn now page pageCount
        else (p.turn now page pageCount).endLoad.replan
      else (p.turn now page pageCount).replan := rfl

/-- A frame that was accepted, before the load is judged. -/
def measure (p : Planner α) (interval : α) : Planner α :=
  { p with
    frames := p.frames.push p.tuning interval
    streams :=
      { p.streams with
        frameInterval := p.streams.frameInterval.publish
          (p.frames.push p.tuning interval).average } }

theorem observeFrame_eq (p : Planner α) (now : Duration) (interval : α) :
    p.observeFrame now interval =
      if FrameWindow.isMeasurement p.tuning interval then
        if (p.frames.push p.tuning interval).isOverloaded p.tuning then
          (p.measure interval).overload now
        else p.measure interval
      else p := by
  cases measured : FrameWindow.isMeasurement p.tuning interval with
  | false => simp [observeFrame, FrameWindow.observe, measured]
  | true =>
    cases judged : (p.frames.push p.tuning interval).isOverloaded p.tuning <;>
      simp [observeFrame, FrameWindow.observe, measured, judged, measure]

omit [Quantity α] in
theorem overload_frame (p : Planner α) (now : Duration) :
    ∃ targets load, p.overload now = { p with
      underLoad := true, lastOverload := some now,
      streams := { p.streams with targets := targets, underLoad := load } } := by
  unfold overload
  dsimp only
  split
  · next loaded =>
    refine ⟨p.streams.targets, p.streams.underLoad, ?_⟩
    rw [loaded]
  · exact ⟨_, _, rfl⟩

/-- A reading of the accelerometer that was accepted, before it is decided whether to
plan. -/
def incline (p : Planner α) (tilt : Tilt α) (gravity : GravityFilter α) : Planner α :=
  { p with
    gravity := gravity
    intensity := tilt.intensity
    streams := { p.streams with sensitivity := p.streams.sensitivity.publish tilt.sensitivity } }

/-- A reading of the accelerometer is discarded or accepted, and then planned for
unless there is a load. -/
theorem observeTilt_eq (p : Planner α) (acceleration : Axes α) :
    p.observeTilt acceleration =
      match p.gravity.observe p.tuning acceleration with
      | none => p
      | some (tilt, gravity) =>
        if p.underLoad then p.incline tilt gravity else (p.incline tilt gravity).replan := rfl

/-- A page outside the document is ignored; under load, one inside it ends the
load if the cooldown has passed. -/
theorem showPage_cases (p : Planner α) (now : Duration) (page pageCount : Count) :
    (pageCount ≤ page ∧ p.showPage now page pageCount = p) ∨
    (page < pageCount ∧ p.underLoad = false ∧
      p.showPage now page pageCount = (p.turn now page pageCount).replan) ∨
    (page < pageCount ∧ p.underLoad = true ∧ p.isCooling now = true ∧
      p.showPage now page pageCount = p.turn now page pageCount) ∨
    (page < pageCount ∧ p.underLoad = true ∧ p.isCooling now = false ∧
      p.showPage now page pageCount = (p.turn now page pageCount).endLoad.replan) := by
  by_cases outside : pageCount ≤ page
  · exact .inl ⟨outside, if_pos outside⟩
  · have inside : page < pageCount := UInt64.not_le.mp outside
    have shown := (p.showPage_eq now page pageCount).trans (if_neg outside)
    cases loaded : p.underLoad with
    | false => exact .inr (.inl ⟨inside, rfl, shown.trans (if_neg (by simp [loaded]))⟩)
    | true =>
      rw [if_pos loaded] at shown
      cases cooling : p.isCooling now with
      | true => exact .inr (.inr (.inl ⟨inside, rfl, rfl, shown.trans (if_pos cooling)⟩))
      | false =>
        exact .inr (.inr (.inr ⟨inside, rfl, rfl, shown.trans (if_neg (by simp [cooling]))⟩))

theorem showPage_induction {P : Planner α → Prop} {p : Planner α} (h : P p) (now : Duration)
    {page pageCount : Count} (turned : page < pageCount → P (p.turn now page pageCount))
    (ended : ∀ {p : Planner α}, P p → P p.endLoad)
    (planned : ∀ {p : Planner α}, P p → P p.replan) : P (p.showPage now page pageCount) := by
  rcases p.showPage_cases now page pageCount with
    ⟨_, eq⟩ | ⟨inside, _, eq⟩ | ⟨inside, _, _, eq⟩ | ⟨inside, _, _, eq⟩
  · rw [eq]
    exact h
  · rw [eq]
    exact planned (turned inside)
  · rw [eq]
    exact turned inside
  · rw [eq]
    exact planned (ended (turned inside))

theorem showPage_updates (p : Planner α) (now : Duration) {page pageCount : Count}
    (inside : page < pageCount) :
    (p.showPage now page pageCount).position = some ⟨page, pageCount⟩ ∧
    (p.showPage now page pageCount).pace = p.pace.observe p.tuning ⟨page, now⟩ ∧
    (p.showPage now page pageCount).streams.readingSpeed = p.streams.readingSpeed.publish
      (p.showPage now page pageCount).pace.pagesPerMinute := by
  rcases p.showPage_cases now page pageCount with
    ⟨outside, _⟩ | ⟨_, _, eq⟩ | ⟨_, _, _, eq⟩ | ⟨_, _, _, eq⟩
  · exact absurd inside (UInt64.not_lt.mpr outside)
  · rw [eq, replan_frame]
    exact ⟨rfl, rfl, rfl⟩
  · rw [eq]
    exact ⟨rfl, rfl, rfl⟩
  · rw [eq, replan_frame]
    exact ⟨rfl, rfl, rfl⟩

theorem underLoad_apply (p : Planner α) (now : Duration) (event : PlannerEvent α) :
    (p.apply now event).underLoad = match event with
      | .page page pageCount => p.underLoad && (decide (pageCount ≤ page) || p.isCooling now)
      | .frame interval => p.underLoad || p.isOverload (.frame interval)
      | .tilt _ => p.underLoad
      | .reset => false := by
  cases event with
  | page page pageCount =>
    show (p.showPage now page pageCount).underLoad = _
    rcases p.showPage_cases now page pageCount with
      ⟨outside, eq⟩ | ⟨inside, calm, eq⟩ | ⟨inside, loaded, cooling, eq⟩ |
      ⟨inside, loaded, cool, eq⟩
    · rw [eq]
      simp [outside]
    · rw [eq, replan_frame]
      simp [turn, calm]
    · rw [eq]
      simp [turn, loaded, cooling]
    · rw [eq, replan_frame]
      simp [endLoad, cool, UInt64.not_le.mpr inside]
  | frame interval =>
    show (p.observeFrame now interval).underLoad = _
    rcases p.observeFrame_cases now interval with ⟨calm, _, _, eq⟩ | ⟨judged, _, _, eq⟩
    · rw [eq]
      simp only [calm, Bool.or_false]
    · rw [eq, overload]
      simp only [judged, Bool.or_true]
      split
      · next loaded => exact loaded
      · rfl
  | tilt acceleration =>
    obtain ⟨_, _, _, _, eq, _⟩ := p.observeTilt_frame acceleration
    show (p.observeTilt acceleration).underLoad = _
    rw [eq]
  | reset => rfl

/-! ## What is watched -/

/-- What holds of a planner beside the moment of the latest overload. -/
structure Watched (t : Tuning α) (latest : Option Duration) (p : Planner α) : Prop where
  tuned : p.tuning = t
  shown : p.streams.underLoad.value = p.underLoad
  hidden : p.underLoad = true → p.streams.targets.value = []
  stamped : p.underLoad = true → ∃ moment, latest = some moment ∧ p.lastOverload = some moment

variable {t : Tuning α} {latest : Option Duration} {p : Planner α}

omit [Quantity α] in
theorem Watched.of_calm (tuned : p.tuning = t) (shown : p.streams.underLoad.value = false)
    (calm : p.underLoad = false) : p.Watched t latest where
  tuned := tuned
  shown := shown.trans calm.symm
  hidden loaded := by
    rw [calm] at loaded
    cases loaded
  stamped loaded := by
    rw [calm] at loaded
    cases loaded

theorem Watched.turn (h : p.Watched t latest) (now : Duration) (page pageCount : Count) :
    (p.turn now page pageCount).Watched t latest :=
  ⟨h.tuned, h.shown, h.hidden, h.stamped⟩

theorem Watched.showPage (h : p.Watched t latest) (now : Duration) (page pageCount : Count) :
    (p.showPage now page pageCount).Watched t latest := by
  rcases p.showPage_cases now page pageCount with
    ⟨_, eq⟩ | ⟨_, calm, eq⟩ | ⟨_, _, _, eq⟩ | ⟨_, _, _, eq⟩
  · rw [eq]
    exact h
  · rw [eq, replan_frame]
    exact .of_calm h.tuned (h.shown.trans calm) calm
  · rw [eq]
    exact h.turn now page pageCount
  · rw [eq, replan_frame]
    exact .of_calm h.tuned (Stream.value_publish _ _) rfl

omit [Quantity α] in
theorem Watched.overload (h : p.Watched t latest) (now : Duration) :
    (p.overload now).Watched t (some now) := by
  unfold Planner.overload
  dsimp only
  split
  · exact ⟨h.tuned, h.shown, h.hidden, fun _ => ⟨now, rfl, rfl⟩⟩
  · exact ⟨h.tuned, Stream.value_publish _ _, fun _ => Stream.value_publish _ _,
      fun _ => ⟨now, rfl, rfl⟩⟩

theorem Watched.observeFrame (h : p.Watched t latest) (now : Duration) (interval : α) :
    (p.observeFrame now interval).Watched t
      (if p.isOverload (.frame interval) then some now else latest) := by
  rcases p.observeFrame_cases now interval with ⟨calm, _, _, eq⟩ | ⟨judged, frames, stream, eq⟩
  · rw [eq, calm]
    exact ⟨h.tuned, h.shown, h.hidden, h.stamped⟩
  · rw [eq, judged]
    have measured : Watched t latest { p with
        frames := frames, streams := { p.streams with frameInterval := stream } } :=
      ⟨h.tuned, h.shown, h.hidden, h.stamped⟩
    exact measured.overload now

theorem Watched.observeTilt (h : p.Watched t latest) (acceleration : Axes α) :
    (p.observeTilt acceleration).Watched t latest := by
  obtain ⟨_, _, _, targets, eq, kept⟩ := p.observeTilt_frame acceleration
  rw [eq]
  refine ⟨h.tuned, h.shown, ?_, h.stamped⟩
  intro loaded
  show targets.value = []
  rw [kept loaded]
  exact h.hidden loaded

theorem Watched.apply (h : p.Watched t latest) (now : Duration) (event : PlannerEvent α) :
    (p.apply now event).Watched t (if p.isOverload event then some now else latest) := by
  cases event with
  | page page pageCount => exact h.showPage now page pageCount
  | frame interval => exact h.observeFrame now interval
  | tilt acceleration => exact h.observeTilt acceleration
  | reset => exact .of_calm h.tuned (Stream.value_publish _ _) rfl

theorem start_watched (t : Tuning α) : (start t).Watched t none :=
  .of_calm rfl rfl rfl

end Planner

/-! ## A planner beside a clock -/

structure TimedPlanner (α : Type) where
  planner : Planner α
  /-- What the clock shows. -/
  clock : Duration
  /-- When the latest frame was taken in that was judged an overload. -/
  latest : Option Duration

inductive PlannerMove (α : Type) where
  /-- The clock comes to show something else, earlier or later. -/
  | clock (reading : Duration)
  | event (event : PlannerEvent α)

namespace TimedPlanner

def start (t : Tuning α) (clock : Duration) : TimedPlanner α := ⟨.start t, clock, none⟩

def step (s : TimedPlanner α) : PlannerMove α → TimedPlanner α
  | .clock reading => { s with clock := reading }
  | .event event =>
    { s with
      planner := s.planner.apply s.clock event
      latest := if s.planner.isOverload event then some s.clock else s.latest }

def run (s : TimedPlanner α) (moves : List (PlannerMove α)) : TimedPlanner α := moves.foldl step s

theorem run_concat (s : TimedPlanner α) (moves : List (PlannerMove α)) (move : PlannerMove α) :
    s.run (moves ++ [move]) = (s.run moves).step move :=
  List.foldl_append

theorem step_watched {t : Tuning α} {s : TimedPlanner α} (h : s.planner.Watched t s.latest)
    (move : PlannerMove α) : (s.step move).planner.Watched t (s.step move).latest := by
  cases move with
  | clock reading => exact h
  | event event => exact h.apply s.clock event

theorem run_watched (t : Tuning α) (clock : Duration) (moves : List (PlannerMove α)) :
    ((start t clock).run moves).planner.Watched t ((start t clock).run moves).latest := by
  have steps : ∀ s : TimedPlanner α, s.planner.Watched t s.latest →
      (s.run moves).planner.Watched t (s.run moves).latest := by
    unfold run
    induction moves with
    | nil => exact fun s h => h
    | cons move moves ih => exact fun s h => ih (s.step move) (step_watched h move)
  exact steps _ (Planner.start_watched t)

/-- Under load, a page inside the document ends it once the cooldown has passed,
one outside never does. -/
theorem page_ends_iff {t : Tuning α} {p : Planner α} {latest : Option Duration}
    (h : p.Watched t latest) {moment : Duration} (hm : latest = some moment)
    (loaded : p.underLoad = true) (now : Duration) (page pageCount : Count) :
    (p.apply now (.page page pageCount)).underLoad = false ↔
      page < pageCount ∧ t.cooldownTime ≤ now - moment := by
  obtain ⟨moment', same, stamp⟩ := h.stamped loaded
  rw [hm, Option.some.injEq] at same
  subst same
  rw [Planner.underLoad_apply]
  simp only [loaded, Planner.isCooling, stamp, h.tuned, Bool.true_and, Bool.or_eq_false_iff,
    decide_eq_false_iff_not, UInt64.not_le, Nat.not_lt]

/-- **Only a page turn after the cooldown, or a reset, ends the load.** After any
moves, under load: nothing is to be prefetched; a move ends the load exactly if
it is a reset, or a page inside the document while the cooldown has passed since
the latest frame that was judged an overload; another such frame restarts the
cooldown; and a page inside the document updates position and speed all the same. -/
theorem load_ends (t : Tuning α) (clock : Duration) (moves : List (PlannerMove α)) :
    let s : TimedPlanner α := (start t clock).run moves
    s.planner.output.underLoad = true →
      s.planner.output.targets = [] ∧
      (∃ moment, s.latest = some moment ∧
        ∀ move, (s.step move).planner.output.underLoad = false ↔
          move = .event .reset ∨ ∃ page pageCount, move = .event (.page page pageCount) ∧
            page < pageCount ∧ t.cooldownTime ≤ s.clock - moment) ∧
      (∀ interval, (s.planner.frames.observe t interval).1 = .overloaded →
        (s.step (.event (.frame interval))).latest = some s.clock) ∧
      (∀ page pageCount, page < pageCount →
        let next := (s.step (.event (.page page pageCount))).planner
        next.position = some ⟨page, pageCount⟩ ∧
        next.pace = s.planner.pace.observe t ⟨page, s.clock⟩ ∧
        next.streams.readingSpeed
          = s.planner.streams.readingSpeed.publish next.pace.pagesPerMinute) := by
  intro s shown
  have h : s.planner.Watched t s.latest := run_watched t clock moves
  have loaded : s.planner.underLoad = true := h.shown.symm.trans shown
  obtain ⟨moment, latest, _⟩ := h.stamped loaded
  refine ⟨h.hidden loaded, ⟨moment, latest, ?_⟩, ?_, ?_⟩
  · intro move
    have next : (s.step move).planner.output.underLoad = (s.step move).planner.underLoad :=
      (step_watched h move).shown
    rw [next]
    cases move with
    | clock reading => simp [step, loaded]
    | event event =>
      show (s.planner.apply s.clock event).underLoad = false ↔ _
      cases event with
      | page page pageCount =>
        rw [page_ends_iff h latest loaded]
        constructor
        · intro ends
          exact .inr ⟨page, pageCount, rfl, ends⟩
        · rintro (same | ⟨_, _, same, ends⟩)
          · cases same
          · cases same
            exact ends
      | frame interval => simp [Planner.underLoad_apply, loaded]
      | tilt acceleration => simp [Planner.underLoad_apply, loaded]
      | reset => simp [Planner.underLoad_apply]
  · intro interval judged
    have overload : s.planner.isOverload (.frame interval) = true := by
      simp only [Planner.isOverload, h.tuned, judged, beq_self_eq_true]
    exact if_pos overload
  · intro page pageCount inside
    rw [← h.tuned]
    exact s.planner.showPage_updates s.clock inside

/-- Five late frames, one second after the clock started. -/
def stutter : List (PlannerMove Float) :=
  [.event (.page 3 100), .clock 1000000000] ++ List.replicate 5 (.event (.frame 40.0))

/-- The same, and two seconds more. -/
def stutterAndWait : List (PlannerMove Float) := stutter ++ [.clock 3000000000]

/-- **Not vacuous**: five late frames begin a load. A page shown at once does not
end it; two seconds later it does. -/
theorem load_ends_standard :
    ((start .standard 0).run stutter).planner.output.targets = [] ∧
    (((start .standard 0).run stutter).step (.event (.page 4 100))).planner.output.underLoad = true ∧
    (((start .standard 0).run stutterAndWait).step
      (.event (.page 4 100))).planner.output.underLoad = false := by
  have loaded : ((start .standard 0).run stutter).planner.output.underLoad = true := by
    decide +kernel
  have latest : ((start .standard 0).run stutter).latest = some 1000000000 := by decide +kernel
  have waited : ((start .standard 0).run stutterAndWait).planner.output.underLoad = true := by
    decide +kernel
  have still : ((start .standard 0).run stutterAndWait).latest = some 1000000000 := by
    decide +kernel
  obtain ⟨hidden, ⟨_, same, ends⟩, _⟩ := load_ends .standard 0 stutter loaded
  obtain ⟨_, ⟨_, same', ends'⟩, _⟩ := load_ends .standard 0 stutterAndWait waited
  rw [latest, Option.some.injEq] at same
  rw [still, Option.some.injEq] at same'
  subst same same'
  refine ⟨hidden, ?_, ?_⟩
  · rw [← Bool.not_eq_false, ends]
    rintro (reset | ⟨_, _, _, _, cool⟩)
    · cases reset
    · exact absurd cool (by decide +kernel)
  · exact (ends' _).mpr (.inr ⟨4, 100, rfl, by decide, by decide +kernel⟩)

end TimedPlanner

end ReadAhead
