import ReadAhead.Proofs.Planner.FrameInterval
import ReadAhead.Proofs.Planner.Numbers
import ReadAhead.Proofs.Planner.Plan
import ReadAhead.Proofs.Watching

/-!
  Planner notices — whoever watches an output is told of its changes, and of no others

  An event can touch several outputs, and some of them only under conditions: a page
  shown after a load ends it, plans again and has a new speed, all at once. But no
  event publishes the same output twice, so none passes through a value that is not
  there in the end.

  Runs in which a sum behind the reading speed leaves 64 bits are left out
  (`Proofs/Planner/Checked`).

  What is proved:
    1. `apply_once` — an event publishes each output once, or not at all.
    2. `Numeric.upToDate` — what is read is what the planner has worked out last.
    3. `outputs_published` — so watchers are told of an output exactly when an event
       changes it: once, and whatever it was before.
    4. `outputs_published_recovery` (anti-vacuity) — a load that begins and ends is
       news, although in the end there is none, as before.
-/

namespace ReadAhead

section Once

variable {α : Type} [Quantity α]

/-- Each output was published once, or not at all. -/
structure PlannerStreams.Once (s s' : PlannerStreams α) : Prop where
  readingSpeed : s.readingSpeed.Once s'.readingSpeed
  targets : s.targets.Once s'.targets
  sensitivity : s.sensitivity.Once s'.sensitivity
  underLoad : s.underLoad.Once s'.underLoad
  frameInterval : s.frameInterval.Once s'.frameInterval

theorem PlannerStreams.Once.refl (s : PlannerStreams α) : s.Once s :=
  ⟨.inl rfl, .inl rfl, .inl rfl, .inl rfl, .inl rfl⟩

namespace Planner

theorem replan_once (p : Planner α) : p.streams.targets.Once p.replan.streams.targets := by
  unfold replan
  split
  · exact .inl rfl
  · exact .inr ⟨_, rfl⟩

theorem showPage_once (p : Planner α) (now : Duration) (page pageCount : Count) :
    p.streams.Once (p.showPage now page pageCount).streams := by
  rcases p.showPage_cases now page pageCount with
    ⟨_, eq⟩ | ⟨_, _, eq⟩ | ⟨_, _, _, eq⟩ | ⟨_, _, _, eq⟩
  · rw [eq]
    exact .refl _
  · have targets := (p.turn now page pageCount).replan_once
    rw [eq]
    rw [replan_frame] at targets ⊢
    exact ⟨.inr ⟨_, rfl⟩, targets, .inl rfl, .inl rfl, .inl rfl⟩
  · rw [eq]
    exact ⟨.inr ⟨_, rfl⟩, .inl rfl, .inl rfl, .inl rfl, .inl rfl⟩
  · have targets := (p.turn now page pageCount).endLoad.replan_once
    rw [eq]
    rw [replan_frame] at targets ⊢
    exact ⟨.inr ⟨_, rfl⟩, targets, .inl rfl, .inr ⟨_, rfl⟩, .inl rfl⟩

theorem overload_once (p : Planner α) (now : Duration) (interval : α) :
    p.streams.Once ((p.measure interval).overload now).streams := by
  unfold overload
  dsimp only
  split
  · exact ⟨.inl rfl, .inl rfl, .inl rfl, .inl rfl, .inr ⟨_, rfl⟩⟩
  · exact ⟨.inl rfl, .inr ⟨_, rfl⟩, .inl rfl, .inr ⟨_, rfl⟩, .inr ⟨_, rfl⟩⟩

theorem observeFrame_once (p : Planner α) (now : Duration) (interval : α) :
    p.streams.Once (p.observeFrame now interval).streams := by
  rw [observeFrame_eq]
  split
  · split
    · exact p.overload_once now interval
    · exact ⟨.inl rfl, .inl rfl, .inl rfl, .inl rfl, .inr ⟨_, rfl⟩⟩
  · exact .refl _

theorem observeTilt_once (p : Planner α) (acceleration : Axes α) :
    p.streams.Once (p.observeTilt acceleration).streams := by
  rw [observeTilt_eq]
  split
  · exact .refl _
  · next tilt gravity _ =>
    split
    · exact ⟨.inl rfl, .inl rfl, .inr ⟨_, rfl⟩, .inl rfl, .inl rfl⟩
    · have targets := (p.incline tilt gravity).replan_once
      rw [replan_frame] at targets ⊢
      exact ⟨.inl rfl, targets, .inr ⟨_, rfl⟩, .inl rfl, .inl rfl⟩

/-- **No event publishes an output twice.** -/
theorem apply_once (p : Planner α) (now : Duration) (event : PlannerEvent α) :
    p.streams.Once (p.apply now event).streams := by
  cases event with
  | page page pageCount => exact p.showPage_once now page pageCount
  | frame interval => exact p.observeFrame_once now interval
  | tilt acceleration => exact p.observeTilt_once acceleration
  | reset => exact ⟨.inr ⟨_, rfl⟩, .inr ⟨_, rfl⟩, .inr ⟨_, rfl⟩, .inr ⟨_, rfl⟩, .inr ⟨_, rfl⟩⟩

end Planner

theorem TimedPlanner.step_once (s : TimedPlanner α) (move : PlannerMove α) :
    s.planner.streams.Once (s.step move).planner.streams := by
  cases move with
  | clock reading => exact .refl _
  | event event => exact s.planner.apply_once s.clock event

end Once

/-! ## Reading the outputs -/

namespace Planner

/-- What is read is what the planner has worked out last. Of the frame interval this
cannot be said: it stays as it was when a load ends and the window starts over. -/
structure UpToDate (t : Tuning Float) (p : Planner Float) : Prop where
  readingSpeed : p.output.readingSpeed = p.pace.pagesPerMinute
  targets : p.output.targets = if p.underLoad then [] else p.plan
  sensitivity : (p.output.sensitivity == GravityFilter.sensitivity t p.intensity) = true
  underLoad : p.output.underLoad = p.underLoad

theorem Numeric.upToDate {t : Tuning Float} {p : Planner Float} {latest : Option Duration}
    (h : p.Numeric t) (watched : p.Watched t latest) (current : p.Current) : p.UpToDate t where
  readingSpeed := h.exact.speed
  targets := by
    cases loaded : p.underLoad with
    | true => exact watched.hidden loaded
    | false => exact current.targets loaded
  sensitivity := h.tilted
  underLoad := watched.shown

end Planner

/-! ## Watching an output -/

namespace TimedPlanner

variable {β : Type} [BEq β]

/-- What watching an output comes to from a state on. -/
structure Faithful (view : PlannerStreams Float → Stream β) (read : PlannerOutput Float → β)
    (s : TimedPlanner Float) : Prop where
  /-- What is read is the output. -/
  latest : (view s.planner.streams).value = read s.planner.output
  /-- Whoever comes now has nothing new to look at. -/
  fresh : (view s.planner.streams).hasChanged (view s.planner.streams).subscribe = false
  /-- A move makes one new version if it changes the output, and none otherwise. -/
  once : ∀ move, (view (s.step move).planner.streams).version
    = (view s.planner.streams).version
      + if read s.planner.output == read (s.step move).planner.output then 0 else 1
  /-- Whoever has seen the output as it is now has something new to look at after any
  further moves exactly if one of them changes it. -/
  news : ∀ r, (view s.planner.streams).hasChanged r = false → ∀ later,
    ((view (s.run later).planner.streams).hasChanged r = true ↔
      ∃ before move after, later = before ++ move :: after ∧
        (read (s.run before).planner.output
          == read ((s.run before).step move).planner.output) = false)

variable {t : Tuning Float} {view : PlannerStreams Float → Stream β}
  {read : PlannerOutput Float → β}

/-- An output that is published once at most, and whose values are equal to themselves,
can be watched. -/
theorem faithful_of_once (sound : t.Sound) (reads : ∀ s, (view s).value = read s.latest)
    (once : ∀ {s s'}, s.Once s' → (view s).Once (view s'))
    (same : ∀ {p : Planner Float}, p.Numeric t →
      ((view p.streams).value == (view p.streams).value) = true)
    {s : TimedPlanner Float} (h : s.planner.Numeric t) : s.Faithful view read := by
  let watched (s : TimedPlanner Float) : Stream β := view s.planner.streams
  have tells : ∀ (s : TimedPlanner Float) (move : PlannerMove Float), s.planner.Numeric t →
      (watched s).Tells (watched (s.step move)) :=
    fun s move h => (once (s.step_once move)).tells (same h)
  refine ⟨reads _, Stream.hasChanged_subscribe _, ?_, ?_⟩
  · intro move
    have told := tells s move h
    rw [Stream.Tells, reads, reads] at told
    exact told
  · intro r seen later
    have told : (watched (s.run later)).hasChanged (watched s).subscribe = true ↔
        Stream.ChangedBy step watched s later :=
      Stream.hasChanged_run (fun _ move h => step_numeric sound h move) tells later h
    simp only [Stream.ChangedBy, watched, reads] at told
    rw [Stream.eq_subscribe seen]
    exact told

/-- **Watchers are told of changes, and of nothing else.** After any moves, each of the
five outputs is as it should be for those who watch it: they read the output, they are
told once of a move that changes it and not told of any other, and if they have seen it
as it is they have something new to look at after any further moves exactly if one of
these changes it, even if another one changes it back. And the outputs are what the
planner has worked out last; the frame interval is after each frame that is measured. -/
theorem outputs_published (usable : t.validate = .ok t) (clock : Duration)
    (moves : List (PlannerMove Float)) :
    let s : TimedPlanner Float := (start t clock).run moves
    (s.Faithful (·.readingSpeed) (·.readingSpeed) ∧ s.Faithful (·.targets) (·.targets) ∧
      s.Faithful (·.sensitivity) (·.sensitivity) ∧ s.Faithful (·.underLoad) (·.underLoad) ∧
      s.Faithful (·.frameInterval) (·.frameInterval)) ∧
    s.planner.UpToDate t ∧
    ∀ interval, FrameWindow.isMeasurement t interval = true →
      let next := s.step (.event (.frame interval))
      next.planner.output.frameInterval = next.planner.frames.average := by
  intro s
  have sound := Tuning.sound_of_validate usable
  have h : s.planner.Numeric t := run_numeric sound clock moves
  refine ⟨⟨?_, ?_, ?_, ?_, ?_⟩, ?_, fun interval accepted => ?_⟩
  · exact faithful_of_once sound (fun _ => rfl) (·.readingSpeed) (·.speed.beq_self) h
  · exact faithful_of_once sound (fun _ => rfl) (·.targets) (fun _ => beq_self_eq_true _) h
  · exact faithful_of_once sound (fun _ => rfl) (·.sensitivity) (·.sensitivity.beq_self) h
  · exact faithful_of_once sound (fun _ => rfl) (·.underLoad) (fun _ => beq_self_eq_true _) h
  · exact faithful_of_once sound (fun _ => rfl) (·.frameInterval) (·.average.beq_self) h
  · exact h.upToDate (run_watched t clock moves) (run_recalls t clock moves).1
  · have measures : (PlannerMove.event (.frame interval)).measures t = true := accepted
    exact step_measures h.exact measures

/-- **Not vacuous**: whoever watches the load from the start is told of one that has
ended since. The page that ends it makes one new version of what is to be prefetched,
though that is cleared and planned anew. -/
theorem outputs_published_recovery :
    let first : TimedPlanner Float := start .standard 0
    (first.run recovery).planner.output.underLoad = false ∧
    (first.run recovery).planner.streams.underLoad.hasChanged
      first.planner.streams.underLoad.subscribe = true ∧
    ((first.run stutterAndWait).step (.event (.page 4 100))).planner.streams.targets.version
      = (first.run stutterAndWait).planner.streams.targets.version + 1 ∧
    (first.run recovery).planner.output.targets = (first.run recovery).planner.plan := by
  intro first
  obtain ⟨⟨_, _, _, load, _⟩, _⟩ := outputs_published Tuning.validate_standard 0 []
  obtain ⟨⟨_, targets, _⟩, _⟩ := outputs_published Tuning.validate_standard 0 stutterAndWait
  obtain ⟨_, current, _⟩ := outputs_published Tuning.validate_standard 0 recovery
  have load : first.Faithful (·.underLoad) (·.underLoad) := load
  have targets : (first.run stutterAndWait).Faithful (·.targets) (·.targets) := targets
  have current : (first.run recovery).planner.UpToDate .standard := current
  have calm : (first.run recovery).planner.underLoad = false := by decide +kernel
  have ended : ((first.run stutterAndWait).planner.output.underLoad
      == ((first.run stutterAndWait).step (.event (.page 4 100))).planner.output.underLoad) = false := by
    decide +kernel
  have planned : ((first.run stutterAndWait).planner.output.targets
      == ((first.run stutterAndWait).step (.event (.page 4 100))).planner.output.targets) = false := by
    decide +kernel
  have news := load.news _ load.fresh recovery
  have once := targets.once (.event (.page 4 100))
  have read := current.targets
  rw [planned, if_neg Bool.false_ne_true] at once
  rw [calm] at read
  exact ⟨current.underLoad.trans calm,
    news.mpr ⟨stutterAndWait, .event (.page 4 100), [], rfl, ended⟩, once, read⟩

end TimedPlanner

end ReadAhead
