import ReadAhead.Proofs.Queue.Background

/-!
  Shutdown — a queue that was stopped leaves no task open

  Stopping a queue abandons every task that waits or runs. These are all that have
  not ended, and what is submitted later is turned away, so there is none that is
  open from then on (`Closed`).

  What is proved:
    1. `stopped_apply` — a queue is stopped by stopping it, and by nothing else, and
       no step starts it again.
    2. `Accounted.task?_stop` — the table after stopping: what waits or runs is
       settled, and all other tasks are as they were.
    3. `closed_apply`, `run_closed` — whatever happens, no task is open in a queue
       that was stopped.
-/

namespace ReadAhead.Queue

variable {α : Type} {q : Queue α}

/-! ## What stops a queue -/

theorem stopped_abandonAll (q : Queue α) (ids : List TaskNumber) :
    (q.abandonAll ids).stopped = q.stopped := by
  rw [abandonAll_frame]

theorem stop_eq (on : q.stopped = false) : q.stop
    = (({ q with stopped := true, pending := .empty }.abandonAll q.waiting).abandonAll
        q.running).publish.wakeAll := by
  rw [stop, on]
  rfl

theorem stop_again (off : q.stopped = true) : q.stop = q := by
  rw [stop, if_pos off]

theorem stopped_stop (q : Queue α) : q.stop.stopped = true := by
  cases on : q.stopped with
  | true => rw [stop_again on, on]
  | false =>
    rw [stop_eq on]
    exact (stopped_abandonAll _ _).trans (stopped_abandonAll _ _)

theorem stopped_submit (q : Queue α) (priority : Priority) (choice : Nat) :
    (q.submit priority choice).2.stopped = q.stopped := by
  cases refused : q.refuses priority with
  | true =>
    rw [submit_of_refused refused]
    exact stopped_abandonAll _ [q.tasks.size + 1]
  | false =>
    rw [submit_of_taken refused]
    rfl

theorem stopped_cancel (q : Queue α) (id : TaskNumber) : (q.cancel id).2.stopped = q.stopped := by
  by_cases hw : id ∈ q.waiting
  · rw [cancel_waiting hw]
    exact stopped_abandonAll _ [id]
  · rw [cancel_not_waiting hw]
    have abandoned : (q.abandon id).2.stopped = q.stopped := stopped_abandonAll q [id]
    split
    · dsimp only
      split <;> exact abandoned
    · rfl

/-- Switching background work touches the switch, the table, what waits and what is
counted and published. -/
theorem setBackground_stays (q : Queue α) (enabled : Bool) :
    ∃ tasks pending cancelled published, tasks.size = q.tasks.size ∧
      q.setBackground enabled = { q with
        tasks := tasks, pending := pending, backgroundEnabled := enabled,
        cancelled := cancelled, published := published } := by
  have abandoned (q' : Queue α) (ids : List TaskNumber) : ∃ tasks cancelled,
      tasks.size = q'.tasks.size ∧
      q'.abandonAll ids = { q' with tasks := tasks, cancelled := cancelled } :=
    ⟨_, _, size_abandonAll q' ids, abandonAll_frame q' ids⟩
  by_cases same : q.backgroundEnabled = enabled
  · subst same
    exact ⟨_, _, _, _, rfl, if_pos rfl⟩
  · cases enabled with
    | true => exact ⟨_, _, _, _, rfl, if_neg same⟩
    | false =>
      obtain ⟨tasks, _, size, dropped⟩ := abandoned { q with
        backgroundEnabled := false
        pending := (q.pending.drain (·.priority.isBackground)).2 }
        ((q.pending.drain (·.priority.isBackground)).1.map Ticket.id)
      obtain ⟨tasks', _, size', abandoned⟩ :=
        abandoned q.dropBackground (q.running.filter q.isBackground)
      rw [setBackground_eq (by simpa using same), abandoned]
      rw [dropBackground, dropped] at size' ⊢
      exact ⟨tasks', _, _, _, size'.trans size, rfl⟩

theorem Accounted.stopped_apply (h : q.Accounted []) (event : QueueEvent α) :
    (q.apply event).stopped = match event with
      | .stop => true
      | _ => q.stopped := by
  cases event with
  | submit priority choice => exact stopped_submit q priority choice
  | look worker =>
    show (q.look worker).stopped = q.stopped
    rcases h.look_cases worker with same | ⟨w, _, _, eq⟩ | ⟨t, rest, _, _, _, _, eq⟩
    · rw [same]
    · rw [eq, setWorker]
    · rw [eq]
      rfl
  | finish worker workEnd =>
    show (q.finish worker workEnd).stopped = q.stopped
    rcases finish_cases q worker workEnd with ⟨id, hw⟩ | same
    · obtain ⟨_, _, _, _, eq⟩ := finish_frame hw workEnd
      rw [eq]
    · rw [same]
  | record worker =>
    show (q.record worker).stopped = q.stopped
    rcases record_cases q worker with ⟨id, ending, hw⟩ | same
    · obtain ⟨_, _, _, recorded, _⟩ := record_eq hw
      rw [recorded]
      rfl
    · rw [same]
  | cancel id => exact stopped_cancel q id
  | setBackground enabled =>
    obtain ⟨_, _, _, _, _, eq⟩ := setBackground_stays q enabled
    show (q.setBackground enabled).stopped = q.stopped
    rw [eq]
  | pause =>
    show q.pause.stopped = q.stopped
    unfold pause
    split <;> rfl
  | resume =>
    show q.resume.stopped = q.stopped
    unfold resume
    split <;> rfl
  | stop => exact stopped_stop q

/-! ## What stopping does to the tasks -/

/-- **Tasks that wait or run are settled as cancelled**, and all other tasks are as
they were. -/
theorem Accounted.task?_stop (h : q.Accounted []) (on : q.stopped = false) (id : TaskNumber) :
    q.stop.task? id = if id ∈ q.waiting ∨ id ∈ q.running
      then (q.task? id).map (Task.settle true (.error .cancelled)) else q.task? id := by
  have table : q.stop.task? id = (({ q with stopped := true, pending := .empty }.abandonAll
      q.waiting).abandonAll q.running).task? id := by
    rw [stop_eq on]
    rfl
  rw [table, task?_abandonAll, task?_abandonAll]
  by_cases waits : id ∈ q.waiting
  · -- what waits does not run, so it is settled once
    have apart : id ∉ q.running := fun runs => h.running_not_waiting runs waits
    simp only [waits, apart, if_true, if_false, true_or]
    rfl
  · by_cases runs : id ∈ q.running
    · simp only [waits, runs, if_true, if_false, or_true]
      rfl
    · simp only [waits, runs, if_false, or_false]
      rfl

/-! ## No task is open -/

/-- Every task has ended. -/
def Closed (q : Queue α) : Prop :=
  ∀ id t, q.task? id = some t → t.result.isSome = true

theorem Closed.isOpen (closed : q.Closed) (id : TaskNumber) : q.isOpen id = false := by
  cases ht : q.task? id with
  | none => rw [Queue.isOpen, ht, Option.any_none]
  | some t =>
    rw [Queue.isOpen, ht, Option.any_some, Option.isNone_eq_false_iff]
    exact closed id t ht

theorem Accounted.pending_empty (h : q.Accounted []) (closed : q.Closed) : q.pending = .empty := by
  cases hp : q.pending with
  | empty => rfl
  | node t left right =>
    have waits : t ∈ q.pending.toList := by
      rw [hp]
      exact List.mem_cons_self
    cases closed t.id _ (h.fresh t waits)

theorem Closed.later {q' : Queue α} (closed : q.Closed) (later : q.Later q')
    (size : q'.tasks.size = q.tasks.size) : q'.Closed := by
  intro id t' ht'
  obtain ⟨t, ht, older⟩ := later.origin size ht'
  obtain ⟨r, hr⟩ := Option.isSome_iff_exists.mp (closed id t ht)
  rw [older.result r hr]
  rfl

theorem Closed.submit (closed : q.Closed) (off : q.stopped = true) (priority : Priority)
    (choice : Nat) : (q.submit priority choice).2.Closed := by
  have refused : q.refuses priority = true := by rw [refuses, off, Bool.true_or]
  intro id t ht
  rw [task?_submit, if_pos refused] at ht
  split at ht
  · cases ht
    rfl
  · exact closed id t ht

theorem Accounted.closed_stop (h : q.Accounted []) (on : q.stopped = false) : q.stop.Closed := by
  intro id t ht
  rw [h.task?_stop on] at ht
  split at ht
  · obtain ⟨t₀, _, rfl⟩ := Option.map_eq_some_iff.mp ht
    rfl
  · next apart =>
    cases hr : t.result with
    | some r => rfl
    | none => exact absurd (h.placed_of_open ht hr) apart

/-- **No step lets an open task come about in a queue that was stopped.** -/
theorem closed_apply (h : q.Accounted []) (closed : q.stopped = true → q.Closed)
    (event : QueueEvent α) (off : (q.apply event).stopped = true) : (q.apply event).Closed := by
  rw [h.stopped_apply] at off
  have other (entered : ∀ priority choice, event ≠ .submit priority choice)
      (switched : ∀ enabled, event ≠ .setBackground enabled) (off : q.stopped = true) :
      (q.apply event).Closed :=
    (closed off).later (h.later_apply event) (h.inside_apply event entered switched).size
  cases event with
  | submit priority choice => exact (closed off).submit off priority choice
  | setBackground enabled =>
    obtain ⟨_, _, _, _, size, eq⟩ := setBackground_stays q enabled
    exact (closed off).later (later_setBackground q enabled)
      ((congrArg (·.tasks.size) eq).trans size)
  | stop =>
    show q.stop.Closed
    cases on : q.stopped with
    | false => exact h.closed_stop on
    | true =>
      -- stopping twice changes nothing
      rw [stop_again on]
      exact closed on
  | _ => exact other nofun nofun off

theorem run_closed (workers : Nat) (paused : Bool) (events : List (QueueEvent α))
    (off : ((start workers paused).run events).stopped = true) :
    ((start workers paused).run events).Closed := by
  have both : ((start workers paused).run events).Accounted [] ∧
      (((start workers paused).run events).stopped = true →
        ((start workers paused).run events).Closed) := by
    refine run_induction
      (motive := fun q => q.Accounted [] ∧ (q.stopped = true → q.Closed)) ?_ ?_ events
    · exact fun q event h => ⟨apply_accounted h.1 event, closed_apply h.1 h.2 event⟩
    · exact ⟨start_accounted workers paused, nofun⟩
  exact both.2 off

end ReadAhead.Queue
