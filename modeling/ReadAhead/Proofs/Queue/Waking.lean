import ReadAhead.Proofs.Queue.Shutdown

/-!
  Waking — no worker sleeps while a task waits for it

  Submitting a task wakes one worker that sleeps, resuming and stopping wake all of
  them. A worker that is woken while the queue is paused goes back to sleep, whatever
  waits, so as long as the queue is paused nothing is said about who sleeps. When it
  is not, either nobody sleeps, or there is an awake worker for every task that waits:
  a worker that looks at the queue takes one of the tasks with it, or sleeps because
  there is none.

  What is proved:
    1. `Accounted.attended_apply` — this is kept by every step (`Attended`), and so
       is that nobody sleeps in a queue that was stopped.
    2. `Accounted.length_apply`, `Accounted.active_eq` — the workers stay as many as
       they were, and those that hold a task are the active tasks.
    3. `no_wakeup_lost` — in every reachable state, and what it comes to when no
       worker can go on by itself.
    4. `no_wakeup_lost_rush` (anti-vacuity) — a worker sleeps beside one that was
       woken for a task, and later both are busy and a third task waits.
-/

namespace ReadAhead.Queue

variable {α : Type} {q : Queue α}

/-- Nobody sleeps in a queue that was stopped; in any other one that is not paused,
nobody sleeps unless as many workers are awake as tasks wait. -/
structure Attended (q : Queue α) : Prop where
  serving : q.stopped = false → q.paused = false →
    .asleep ∉ q.workers ∨ q.pending.size ≤ q.workers.count .awake
  closed : q.stopped = true → .asleep ∉ q.workers

theorem Attended.of_awake (none_sleeps : .asleep ∉ q.workers) : q.Attended :=
  ⟨fun _ _ => .inl none_sleeps, fun _ => none_sleeps⟩

/-- Where the same workers sleep, fewer tasks may wait. -/
theorem Attended.fewer {q' : Queue α} (a : q.Attended) (workers : q'.workers = q.workers)
    (stopped : q'.stopped = q.stopped) (paused : q'.paused = false → q.paused = false)
    (size : q'.pending.size ≤ q.pending.size) : q'.Attended where
  serving on going := by
    rw [workers]
    rw [stopped] at on
    rcases a.serving on (paused going) with none_sleeps | enough
    · exact .inl none_sleeps
    · exact .inr (Nat.le_trans size enough)
  closed off := by
    rw [workers]
    rw [stopped] at off
    exact a.closed off

/-- A worker that was not awake may do anything but go to sleep. -/
theorem Attended.go_on {q' : Queue α} (a : q.Attended) {i : Nat} {w w' : Worker}
    (hw : q.workers[i]? = some w) (workers : q'.workers = q.workers.set i w')
    (was : w ≠ .awake) (now : w' ≠ .asleep) (stopped : q'.stopped = q.stopped)
    (paused : q'.paused = q.paused) (pending : q'.pending = q.pending) : q'.Attended where
  serving on going := by
    rw [workers, pending]
    rw [stopped] at on
    rw [paused] at going
    rcases a.serving on going with none_sleeps | enough
    · exact .inl (Worker.asleep_set none_sleeps now)
    · have counted := Worker.awake_set hw w'
      rw [if_neg was] at counted
      exact .inr (by omega)
  closed off := by
    rw [workers]
    rw [stopped] at off
    exact Worker.asleep_set (a.closed off) now

/-! ## Every step keeps it -/

theorem Attended.submit (a : q.Attended) (priority : Priority) (choice : Nat) :
    (q.submit priority choice).2.Attended := by
  cases refused : q.refuses priority with
  | true =>
    rw [submit_of_refused refused, abandon_eq, modifyTask_frame]
    exact a.fewer rfl rfl id (Nat.le_refl _)
  | false =>
    have on : q.stopped = false := (Bool.or_eq_false_iff.mp refused).1
    rw [submit_of_taken refused]
    by_cases sleeps : .asleep ∈ q.workers
    · -- the task that waits from now on is made up for by the worker that is woken
      refine ⟨fun _ going => .inr ?_, fun off => absurd (on.symm.trans off) Bool.false_ne_true⟩
      have enough := (a.serving on going).resolve_left fun none_sleeps => none_sleeps sleeps
      calc (q.pending.push ⟨q.tasks.size + 1, priority⟩).size
        _ = q.pending.size + 1 := Pending.size_push _ _
        _ ≤ q.workers.count .awake + 1 := Nat.add_le_add_right enough 1
        _ = (Worker.wakeOne q.workers choice).count .awake := (Worker.awake_wakeOne sleeps choice).symm
    · apply Attended.of_awake
      show .asleep ∉ Worker.wakeOne q.workers choice
      rwa [Worker.wakeOne_awake sleeps]

theorem Accounted.attended_look (h : q.Accounted []) (a : q.Attended) (worker : Nat) :
    (q.look worker).Attended := by
  by_cases hw : q.workers[worker]? = some .awake
  · rcases h.look_awake hw with ⟨off, eq⟩ | ⟨on, idle, eq⟩ | ⟨t, rest, on, going, pop, eq⟩
    · rw [eq]
      exact .of_awake (Worker.asleep_set (a.closed off) nofun)
    · rw [eq]
      refine ⟨fun _ going => .inr ?_, fun off => absurd (on.symm.trans off) Bool.false_ne_true⟩
      -- it goes to sleep because nothing waits
      rcases idle with paused | empty
      · exact absurd (going.symm.trans paused) Bool.false_ne_true
      · show q.pending.size ≤ _
        rw [empty]
        exact Nat.zero_le _
    · rw [eq]
      refine ⟨fun _ _ => ?_, fun off => absurd (on.symm.trans off) Bool.false_ne_true⟩
      rcases a.serving on going with none_sleeps | enough
      · exact .inl (Worker.asleep_set none_sleeps nofun)
      · -- it takes one of the tasks that wait with it
        have counted := Worker.awake_set hw (.executing t.id)
        rw [if_pos rfl, if_neg nofun] at counted
        rw [Pending.size_pop pop] at enough
        refine .inr ?_
        show rest.size ≤ (q.workers.set worker (.executing t.id)).count .awake
        omega
  · have same : q.look worker = q := if_neg hw
    rwa [same]

theorem Attended.cancel (a : q.Attended) (id : TaskNumber) : (q.cancel id).2.Attended := by
  by_cases waits : id ∈ q.waiting
  · rw [cancel_waiting waits, abandon_eq, modifyTask_frame]
    exact a.fewer rfl rfl (fun going => going) (q.pending.size_drain_le _)
  · rw [cancel_not_waiting waits, abandon_eq, modifyTask_frame]
    split
    · dsimp only
      split <;> exact a.fewer rfl rfl (fun going => going) (Nat.le_refl _)
    · exact a

theorem Attended.setBackground (a : q.Attended) (enabled : Bool) :
    (q.setBackground enabled).Attended := by
  obtain ⟨tasks, pending, cancelled, published, _, eq⟩ := setBackground_stays q enabled
  have size : (q.setBackground enabled).pending.size ≤ q.pending.size := by
    by_cases same : q.backgroundEnabled = enabled
    · have kept : q.setBackground enabled = q := if_pos same
      exact Nat.le_of_eq (congrArg (fun q' => q'.pending.size) kept)
    · cases enabled with
      | true =>
        have switched : q.setBackground true = publish { q with backgroundEnabled := true } :=
          if_neg same
        exact Nat.le_of_eq (congrArg (fun q' => q'.pending.size) switched)
      | false =>
        rw [(setBackground_frame (by simpa using same)).1]
        exact q.pending.size_drain_le _
  rw [eq] at size ⊢
  exact a.fewer rfl rfl (fun going => going) size

/-- **Every step keeps a queue attended.** -/
theorem Accounted.attended_apply (h : q.Accounted []) (a : q.Attended) (event : QueueEvent α) :
    (q.apply event).Attended := by
  cases event with
  | submit priority choice => exact a.submit priority choice
  | look worker => exact h.attended_look a worker
  | finish worker workEnd =>
    show (q.finish worker workEnd).Attended
    rcases finish_cases q worker workEnd with ⟨id, hw⟩ | same
    · obtain ⟨tasks, ending, _, _, eq⟩ := finish_frame hw workEnd
      rw [eq]
      exact a.go_on hw rfl nofun nofun rfl rfl rfl
    · rwa [same]
  | record worker =>
    show (q.record worker).Attended
    rcases record_cases q worker with ⟨id, ending, hw⟩ | same
    · obtain ⟨_, _, _, recorded, _⟩ := record_eq hw
      rw [recorded]
      exact a.go_on hw rfl nofun nofun rfl rfl rfl
    · rwa [same]
  | cancel id => exact a.cancel id
  | setBackground enabled => exact a.setBackground enabled
  | pause =>
    show q.pause.Attended
    unfold pause
    split
    · exact a
    · exact a.fewer rfl rfl nofun (Nat.le_refl _)
  | resume =>
    show q.resume.Attended
    unfold resume
    split
    · exact .of_awake (Worker.asleep_woken _)
    · exact a
  | stop =>
    show q.stop.Attended
    cases on : q.stopped with
    | true => rwa [stop_again on]
    | false =>
      rw [stop_eq on]
      exact .of_awake (Worker.asleep_woken _)

theorem run_attended (workers : Nat) (paused : Bool) (events : List (QueueEvent α)) :
    ((start workers paused).run events).Attended := by
  have awake : (start workers paused : Queue α).Attended := by
    refine .of_awake fun sleeps => ?_
    cases List.eq_of_mem_replicate sleeps
  exact ((start_accounted workers paused).run_induction (fun _ h => h.attended_apply) awake events).2

/-! ## The workers, counted -/

theorem Accounted.length_apply (h : q.Accounted []) (event : QueueEvent α) :
    (q.apply event).workers.length = q.workers.length := by
  rcases h.workers_apply event with
    same | woken | ⟨i, a, b, _, _, set⟩ | ⟨worker, t, rest, _, _, _, _, _, given⟩
  · rw [same]
  · rw [woken, List.length_map]
  · rw [set, List.length_set]
  · rw [given]
    exact List.length_set

theorem run_length (workers : Nat) (paused : Bool) (events : List (QueueEvent α)) :
    ((start workers paused).run events).workers.length = workers :=
  ((start_accounted workers paused).run_induction
    (motive := fun q => q.workers.length = workers)
    (fun _ h same event => (h.length_apply event).trans same) List.length_replicate events).2

theorem Accounted.active_eq (h : q.Accounted []) :
    q.statistics.active = q.workers.countP (·.task?.isSome) := by
  calc q.running.length
    _ = ((Worker.busy q.workers).filterMap Worker.task?).length := h.held.length_eq
    _ = (Worker.busy q.workers).countP (·.task?.isSome) := List.length_filterMap_eq_countP
    _ = q.workers.countP (·.task?.isSome) := by
      rw [Worker.busy, List.countP_filter]
      simp only [Bool.and_self]

/-- **No wake-up is lost.** In every reachable state that is neither paused nor
stopped, nobody sleeps, or as many workers are awake as tasks wait. So if the queue is
not paused and every worker holds a task or sleeps, a task waits only if all of them
hold one. The active tasks are always those that workers hold, one each, and there are
as many workers as in the beginning. -/
theorem no_wakeup_lost (workers : Nat) (paused : Bool) (events : List (QueueEvent α)) :
    let q : Queue α := (start workers paused).run events
    (q.paused = false → q.stopped = false →
      .asleep ∉ q.workers ∨ q.statistics.queued ≤ q.workers.count .awake) ∧
    (q.paused = false → (∀ w ∈ q.workers, w.task?.isSome = true ∨ w = .asleep) →
      0 < q.statistics.queued → ∀ w ∈ q.workers, w.task?.isSome = true) ∧
    q.statistics.active = q.workers.countP (·.task?.isSome) ∧
    q.workers.length = workers ∧ q.statistics.active ≤ workers := by
  intro q
  have h : q.Accounted [] := run_accounted workers paused events
  have a : q.Attended := run_attended workers paused events
  have length : q.workers.length = workers := run_length workers paused events
  refine ⟨fun going on => a.serving on going, ?_, h.active_eq, length, ?_⟩
  · intro going settled waits w hw
    have on : q.stopped = false := by
      rw [← Bool.not_eq_true]
      intro off
      -- nothing waits in a queue that was stopped
      have empty := h.pending_empty (run_closed workers paused events off)
      rw [statistics, empty] at waits
      exact Nat.lt_irrefl 0 waits
    rcases a.serving on going with none_sleeps | enough
    · rcases settled w hw with holds | sleeps
      · exact holds
      · exact absurd (sleeps ▸ hw) none_sleeps
    · -- no worker is awake, so no task waits
      have none_awake : q.workers.count .awake = 0 := by
        apply List.count_eq_zero.mpr
        intro awake
        rcases settled _ awake with holds | sleeps
        · cases holds
        · cases sleeps
      rw [none_awake] at enough
      exact absurd waits (Nat.not_lt.mpr enough)
  · rw [h.active_eq, ← length]
    exact List.countP_le_length

/-- Both workers sleep, and one of them is woken for a task. -/
def rouse : List (QueueEvent Nat) := [.look 0, .look 1, .submit .visible 1]

/-- The task is begun; a second one wakes the other worker, which finds the queue
paused and sleeps again, and a third one is submitted; then both are woken. -/
def rush : List (QueueEvent Nat) :=
  [.look 1, .submit .nearby 0, .pause, .look 0, .submit .thumbnail 0, .look 0, .resume, .look 0]

/-- **Not vacuous**: first one worker sleeps and one is awake for the task that
waits; in the end a task waits, and both workers hold one. -/
theorem no_wakeup_lost_rush :
    let q := (start 2 false).run rouse
    let q' := q.run rush
    q.workers = [.asleep, .awake] ∧ q.statistics.queued ≤ q.workers.count .awake ∧
    q'.statistics.queued = 1 ∧ (∀ w ∈ q'.workers, w.task?.isSome = true) := by
  intro q q'
  have workers : q.workers = [.asleep, .awake] := by decide +kernel
  have sleeps : .asleep ∈ q.workers := by
    rw [workers]
    exact List.mem_cons_self
  have queued : q'.statistics.queued = 1 := by decide +kernel
  have joined : q' = (start 2 false).run (rouse ++ rush) := (List.foldl_append ..).symm
  obtain ⟨awake, _⟩ := no_wakeup_lost 2 false rouse
  obtain ⟨_, busy, _⟩ := no_wakeup_lost 2 false (rouse ++ rush)
  rw [← joined] at busy
  refine ⟨workers, ?_, queued, ?_⟩
  · exact (awake (by decide +kernel) (by decide +kernel)).resolve_left fun none_sleeps =>
      none_sleeps sleeps
  · exact busy (by decide +kernel) (by decide +kernel) (Nat.lt_of_lt_of_eq Nat.one_pos queued.symm)

end ReadAhead.Queue
