import ReadAhead.Proofs.Planner.Published

/-!
  Frame interval — when the average that is published is that of the window

  Three kinds of event change the frame window. A frame that is accepted and a reset
  publish the average of the new window at once. A page change that ends a load
  starts the window over as well, and publishes nothing: the average of the window
  under load stays until the next frame or reset (`LapsedSince`).

  Runs in which a sum behind the reading speed leaves 64 bits are left out
  (`Proofs/Planner/Checked`).

  What is proved:
    1. `step_quiet`, `step_measures` — what each move does to the window and to the
       average published.
    2. `lapsedSince_concat` — how an average comes to be out of date, and stays so.
    3. `run_average` — an invariant of all runs: an average out of date is that of the
       window before the load ended, beside an empty window; any other is that of the
       window.
    4. `frame_interval_current_iff` — so exactly those averages are current that are
       not out of date, but for one that is zero anyway.
    5. `frame_interval_current_iff_recovery` (anti-vacuity), `frame_interval_stale` —
       a load that ends, with and without another frame.
-/

namespace ReadAhead

section
variable {α : Type} [Quantity α]

/-- Whether an average is published with a move: a frame that is accepted, or a
reset. -/
def PlannerMove.measures (t : Tuning α) : PlannerMove α → Bool
  | .event (.frame interval) => FrameWindow.isMeasurement t interval
  | .event .reset => true
  | _ => false

theorem Planner.frameInterval_showPage (p : Planner α) (now : Duration) (page pageCount : Count) :
    (p.showPage now page pageCount).streams.frameInterval = p.streams.frameInterval := by
  refine showPage_induction (P := fun q => q.streams.frameInterval = p.streams.frameInterval)
    rfl now (fun _ => rfl) id ?_
  intro q same
  rw [replan_frame]
  exact same

end

namespace TimedPlanner

variable {α : Type} [Quantity α]

/-- Whether a move ends a load, as far as the output tells. -/
def EndsLoad (s : TimedPlanner α) (move : PlannerMove α) : Prop :=
  s.planner.output.underLoad = true ∧ (s.step move).planner.output.underLoad = false

/-- A page change ended a load after some first moves, and no average was published
since then. -/
def LapsedSince (t : Tuning α) (clock : Duration) (before moves : List (PlannerMove α)) : Prop :=
  ∃ page pageCount after, moves = before ++ .event (.page page pageCount) :: after ∧
    EndsLoad ((start t clock).run before) (.event (.page page pageCount)) ∧
    ∀ move ∈ after, move.measures t = false

/-! ## One move -/

variable {t : Tuning α} {s : TimedPlanner α} {move : PlannerMove α}

theorem endsLoad_iff (watched : s.planner.Watched t s.latest) (move : PlannerMove α) :
    EndsLoad s move ↔
      s.planner.underLoad = true ∧ (s.step move).planner.underLoad = false := by
  rw [← watched.shown, ← (step_watched watched move).shown]
  exact Iff.rfl

/-- A move without an average leaves the one that is published. It starts the window
over if it ends a load, and begins none. -/
theorem step_quiet (tuned : s.planner.tuning = t) (quiet : move.measures t = false) :
    (s.step move).planner.streams.frameInterval = s.planner.streams.frameInterval ∧
    (s.step move).planner.frames
      = (if s.planner.underLoad && !(s.step move).planner.underLoad then .empty
        else s.planner.frames) ∧
    ((s.step move).planner.underLoad = true → s.planner.underLoad = true) := by
  cases move with
  | clock reading => exact ⟨rfl, by simp [step], id⟩
  | event event =>
    cases event with
    | page page pageCount =>
      refine ⟨s.planner.frameInterval_showPage s.clock page pageCount,
        s.planner.frames_showPage s.clock page pageCount, fun still => ?_⟩
      have load := s.planner.underLoad_apply s.clock (.page page pageCount)
      exact (Bool.and_eq_true_iff.mp (load.symm.trans still)).1
    | frame interval =>
      have discarded : FrameWindow.isMeasurement s.planner.tuning interval = false := by
        rw [tuned]
        exact quiet
      have same : (s.step (.event (.frame interval))).planner = s.planner := by
        show s.planner.observeFrame s.clock interval = s.planner
        rw [Planner.observeFrame_eq, discarded]
        rfl
      rw [same]
      exact ⟨rfl, by simp, id⟩
    | tilt acceleration =>
      obtain ⟨_, _, _, _, eq, _⟩ := s.planner.observeTilt_frame acceleration
      rw [show (s.step (.event (.tilt acceleration))).planner = _ from eq]
      exact ⟨rfl, by simp, id⟩
    | reset => cases quiet

theorem page_of_endsLoad (watched : s.planner.Watched t s.latest) (quiet : move.measures t = false)
    (ends : EndsLoad s move) : ∃ page pageCount, move = .event (.page page pageCount) := by
  obtain ⟨loaded, calm⟩ := (endsLoad_iff watched move).mp ends
  cases move with
  | clock reading =>
    rw [show (s.step (.clock reading)).planner = s.planner from rfl, loaded] at calm
    cases calm
  | event event =>
    have load := s.planner.underLoad_apply s.clock event
    rw [show s.planner.apply s.clock event = (s.step (.event event)).planner from rfl, calm] at load
    cases event with
    | page page pageCount => exact ⟨page, pageCount, rfl⟩
    | frame interval => simp [loaded] at load
    | tilt acceleration => simp [loaded] at load
    | reset => cases quiet

theorem step_measures {t : Tuning Float} {s : TimedPlanner Float} {move : PlannerMove Float}
    (is_exact : s.planner.Exact t) (measures : move.measures t = true) :
    (s.step move).planner.streams.frameInterval.value = (s.step move).planner.frames.average := by
  cases move with
  | clock reading => cases measures
  | event event =>
    cases event with
    | page page pageCount => cases measures
    | tilt acceleration => cases measures
    | reset => exact Stream.value_publish_unsigned is_exact.average (Binary64.unsigned_ofNat 0)
    | frame interval =>
      have accepted : FrameWindow.isMeasurement s.planner.tuning interval = true := by
        rw [is_exact.tuned]
        exact measures
      have published : (s.planner.measure interval).streams.frameInterval.value
          = (s.planner.measure interval).frames.average :=
        Stream.value_publish_unsigned is_exact.average
          (FrameWindow.unsigned_average (FrameWindow.unsigned_push is_exact.intervals accepted))
      show (s.planner.observeFrame s.clock interval).streams.frameInterval.value
        = (s.planner.observeFrame s.clock interval).frames.average
      rw [Planner.observeFrame_eq, accepted, if_pos rfl]
      split
      · obtain ⟨_, _, eq⟩ := (s.planner.measure interval).overload_frame s.clock
        rw [eq]
        exact published
      · exact published

/-! ## Averages out of date -/

/-- An average is out of date after one more move if no other is published with it,
and it was out of date before or the move ends a load. -/
theorem lapsedSince_concat {clock : Duration} {before moves : List (PlannerMove α)} :
    LapsedSince t clock before (moves ++ [move]) ↔ move.measures t = false ∧
      (LapsedSince t clock before moves ∨ (before = moves ∧
        EndsLoad ((start t clock).run moves) move ∧
          ∃ page pageCount, move = .event (.page page pageCount))) := by
  constructor
  · rintro ⟨page, pageCount, after, same, ends, quiet⟩
    cases after using List.reverseRecOn with
    | nil =>
      obtain ⟨rfl, last⟩ := List.append_inj' same rfl
      obtain rfl := List.singleton_inj.mp last
      exact ⟨rfl, .inr ⟨rfl, ends, page, pageCount, rfl⟩⟩
    | append_singleton after last =>
      rw [← List.cons_append, ← List.append_assoc] at same
      obtain ⟨rfl, last⟩ := List.append_inj' same rfl
      obtain rfl := List.singleton_inj.mp last
      exact ⟨quiet _ (List.mem_concat_self ..), .inl ⟨page, pageCount, after, rfl, ends,
        fun m hm => quiet m (List.mem_append_left _ hm)⟩⟩
  · rintro ⟨quiet, ⟨page, pageCount, after, rfl, ends, others⟩ | ⟨rfl, ends, page, pageCount, rfl⟩⟩
    · refine ⟨page, pageCount, after ++ [move], by simp, ends, fun m hm => ?_⟩
      rcases List.mem_append.mp hm with old | new
      · exact others m old
      · rw [List.mem_singleton.mp new]
        exact quiet
    · exact ⟨page, pageCount, [], rfl, ends, nofun⟩

/-- **An average out of date is that before the load ended, any other is that of the
window.** -/
theorem run_average {t : Tuning Float} (usable : t.validate = .ok t) (clock : Duration)
    (moves : List (PlannerMove Float)) :
    let p := ((start t clock).run moves).planner
    (∀ before, LapsedSince t clock before moves →
      p.underLoad = false ∧ p.frames = .empty ∧
      p.streams.frameInterval.value = ((start t clock).run before).planner.frames.average) ∧
    ((∀ before, ¬ LapsedSince t clock before moves) →
      p.streams.frameInterval.value = p.frames.average) := by
  induction moves using List.reverseRecOn with
  | nil =>
    refine ⟨fun before lapsed => ?_, fun _ => rfl⟩
    obtain ⟨page, pageCount, after, same, _⟩ := lapsed
    simp at same
  | append_singleton moves move ih =>
    obtain ⟨stale, fresh⟩ := ih
    have watched := run_watched t clock moves
    have is_exact := run_exact usable clock moves
    rw [run_concat]
    dsimp only
    cases measures : move.measures t with
    | true =>
      refine ⟨fun before lapsed => ?_, fun _ => step_measures is_exact measures⟩
      rw [lapsedSince_concat, measures] at lapsed
      cases lapsed.1
    | false =>
      obtain ⟨kept, frames, load⟩ := step_quiet watched.tuned measures
      by_cases ends : EndsLoad ((start t clock).run moves) move
      · -- under load, no average is out of date
        obtain ⟨loaded, calm⟩ := (endsLoad_iff watched move).mp ends
        have current := fresh fun before lapsed =>
          Bool.false_ne_true ((stale before lapsed).1.symm.trans loaded)
        refine ⟨fun before lapsed => ⟨calm, ?_, ?_⟩, fun no_lapse => absurd ?_ (no_lapse moves)⟩
        · rw [frames, loaded, calm]
          rfl
        · rw [kept]
          rcases (lapsedSince_concat.mp lapsed).2 with earlier | ⟨rfl, _⟩
          · exact absurd ((stale before earlier).1.symm.trans loaded) Bool.false_ne_true
          · exact current
        · exact lapsedSince_concat.mpr
            ⟨measures, .inr ⟨rfl, ends, page_of_endsLoad watched measures ends⟩⟩
      · have still : ((start t clock).run moves).planner.frames
            = (((start t clock).run moves).step move).planner.frames := by
          rw [endsLoad_iff watched] at ends
          rw [frames, if_neg (by simpa using ends)]
        rw [kept, ← still]
        refine ⟨fun before lapsed => ?_, fun no_lapse => fresh fun before lapsed => ?_⟩
        · rcases (lapsedSince_concat.mp lapsed).2 with earlier | ⟨_, now, _⟩
          · obtain ⟨calm, empty, published⟩ := stale before earlier
            refine ⟨?_, empty, published⟩
            rw [← Bool.not_eq_true]
            exact fun loaded => Bool.false_ne_true (calm.symm.trans (load loaded))
          · exact absurd now ends
        · exact no_lapse before (lapsedSince_concat.mpr ⟨measures, .inl lapsed⟩)

/-- **The average published is that of the window, unless a load has ended since.**
After any moves, it is exactly then that of the window if no page change has ended a
load since the latest frame that was accepted, or the latest reset, or if it is zero.
Otherwise the window is empty, and what is published is the average of the window
before that page change. -/
theorem frame_interval_current_iff (t : Tuning Float) (usable : t.validate = .ok t)
    (clock : Duration) (moves : List (PlannerMove Float)) :
    let p := ((start t clock).run moves).planner
    (p.output.frameInterval = p.frames.average ↔
      (∀ before, ¬ LapsedSince t clock before moves) ∨
        p.output.frameInterval = Quantity.ofNat 0) ∧
    ∀ before, LapsedSince t clock before moves →
      p.frames.intervals = [] ∧
      p.output.frameInterval = ((start t clock).run before).planner.frames.average := by
  intro p
  obtain ⟨stale, fresh⟩ := run_average usable clock moves
  refine ⟨⟨fun same => ?_, fun current => ?_⟩, fun before lapsed => ?_⟩
  · by_cases no_lapse : ∀ before, ¬ LapsedSince t clock before moves
    · exact .inl no_lapse
    · obtain ⟨before, lapsed⟩ := not_forall_not.mp no_lapse
      refine .inr (same.trans ?_)
      rw [(stale before lapsed).2.1]
      rfl
  · rcases current with no_lapse | zero
    · exact fresh no_lapse
    · by_cases no_lapse : ∀ before, ¬ LapsedSince t clock before moves
      · exact fresh no_lapse
      · obtain ⟨before, lapsed⟩ := not_forall_not.mp no_lapse
        refine zero.trans ?_
        rw [(stale before lapsed).2.1]
        rfl
  · obtain ⟨_, empty, published⟩ := stale before lapsed
    exact ⟨congrArg FrameWindow.intervals empty, published⟩

/-- Five late frames, and two seconds later a page change that ends the load. -/
def recovery : List (PlannerMove Float) := stutterAndWait ++ [.event (.page 4 100)]

theorem recovery_lapsed : LapsedSince .standard 0 stutterAndWait recovery :=
  ⟨4, 100, [], rfl, ⟨by decide +kernel, by decide +kernel⟩, nofun⟩

/-- **Not vacuous**: the load ends, and the average under load is published beside an
empty window. With another frame, the average published is that of the window. -/
theorem frame_interval_current_iff_recovery :
    (((start .standard 0).run recovery).planner.frames.intervals = [] ∧
      ((start .standard 0).run recovery).planner.output.frameInterval = 40.0) ∧
    ((start .standard 0).run (recovery ++ [.event (.frame 16.0)])).planner.output.frameInterval
      = ((start .standard 0).run
          (recovery ++ [.event (.frame 16.0)])).planner.frames.average := by
  have usable := Tuning.validate_standard
  obtain ⟨_, stale⟩ := frame_interval_current_iff .standard usable 0 recovery
  obtain ⟨empty, published⟩ := stale _ recovery_lapsed
  refine ⟨⟨empty, published.trans (by decide +kernel)⟩, ?_⟩
  refine (frame_interval_current_iff .standard usable 0 _).1.mpr (.inl fun before lapsed => ?_)
  have discarded := (lapsedSince_concat.mp lapsed).1
  revert discarded
  decide +kernel

/-- **An average published can be out of date**: with the standard tuning, the page
change that ends the load leaves an average of forty milliseconds beside an empty
window. -/
theorem frame_interval_stale :
    ¬ ∀ (t : Tuning Float) (_ : t.validate = .ok t) (clock : Duration)
      (moves : List (PlannerMove Float)),
      ((start t clock).run moves).planner.output.frameInterval
        = ((start t clock).run moves).planner.frames.average := by
  intro current
  have same := current .standard Tuning.validate_standard 0 recovery
  revert same
  decide +kernel

end TimedPlanner

end ReadAhead
