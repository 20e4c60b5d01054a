import ReadAhead.Queue.Receipt
import ReadAhead.Proofs.Queue.Shutdown

/-!
  Cancelling — what becomes of one task that is cancelled

  A task is cancelled by its number, from the queue or through its receipt. It may
  wait, run, have ended, or not be there at all. The work of a task that runs may
  have flagged its own token and go on; cancelling does not look at flags.

  What is proved:
    1. `Accounted.cancel_answer` — cancelling tells whether there is such a task and
       it has not ended.
    2. `task?_cancel`, `Accounted.cancel_open`, `Accounted.upcoming_cancel`
       — a task that had not ended is settled and leaves the pending ones, which
       keep their order; nothing else is touched but one counter.
    3. `Accounted.cancel_late` — cancelling any other number changes no more than a
       flag.
    4. `Accounted.executing_run`, `Accounted.absent_run` — a worker goes on with its
       task until the work ends, whatever happens; and what neither waits nor runs
       never runs again.
    5. `cancel_exact` — all of this in every reachable state.
    6. `cancel_exact_each` (anti-vacuity) — a task that runs and one that waits are
       cancelled, one that is not there is not.
-/

namespace ReadAhead.Queue

variable {α : Type} {q : Queue α}

/-! ## Tokens flagged by work -/

/-- Works flag the tokens of these tasks, and go on. -/
def raise (q : Queue α) (ids : List TaskNumber) : Queue α := ids.foldl flag q

theorem raise_frame (q : Queue α) (ids : List TaskNumber) :
    q.raise ids = { q with tasks := (q.raise ids).tasks } := by
  unfold raise
  induction ids generalizing q with
  | nil => rfl
  | cons id ids ih =>
    rw [List.foldl_cons, ih, flag, modifyTask_frame]

theorem isOpen_flag (q : Queue α) (id j : TaskNumber) : (q.flag id).isOpen j = q.isOpen j := by
  rw [isOpen, isOpen, flag, task?_modifyTask]
  split
  · cases q.task? j <;> rfl
  · rfl

theorem countP_flag (q : Queue α) (id : TaskNumber) (e : Ending) :
    (q.flag id).tasks.countP (Task.booked e) = q.tasks.countP (Task.booked e) := by
  cases ht : q.task? id with
  | none => rw [flag, modifyTask_none ht]
  | some t =>
    have counted := countP_modifyTask ht ({ · with flagged := true }) (Task.booked e)
    exact Nat.add_right_cancel counted

/-- A token that is flagged while its task does not wait leaves the ledger as it
is. -/
protected theorem Accounted.flag (h : q.Accounted []) {id : TaskNumber} (hid : id ∉ q.waiting) :
    (q.flag id).Accounted [] := by
  have frame : q.flag id = { q with tasks := (q.flag id).tasks } := modifyTask_frame q id _
  have opened := isOpen_flag q id
  have booked := countP_flag q id
  have fresh (t : Ticket) (ht : t ∈ q.pending.toList) :
      (q.flag id).task? t.id = some ⟨t.priority, false, none⟩ := by
    rw [Queue.flag, task?_modifyTask, if_neg, h.fresh t ht]
    intro same
    exact hid (same ▸ List.mem_map_of_mem ht)
  have known := h.known_settle id ({ · with flagged := true })
  rw [frame] at opened ⊢
  exact { h with
    fresh := by
      rw [frame] at fresh
      exact fresh
    placed := fun j hj => h.placed j ((opened j).symm.trans hj)
    known := known
    ended := fun j e hm => (opened j).trans (h.ended j e hm)
    balanced := fun e => (h.balanced e).trans (booked e).symm }

theorem isOpen_raise (q : Queue α) (ids : List TaskNumber) (j : TaskNumber) :
    (q.raise ids).isOpen j = q.isOpen j := by
  unfold raise
  induction ids generalizing q with
  | nil => rfl
  | cons id ids ih => rw [List.foldl_cons, ih, isOpen_flag]

protected theorem Accounted.raise (h : q.Accounted []) {ids : List TaskNumber}
    (running : ∀ id ∈ ids, id ∈ q.running) : (q.raise ids).Accounted [] := by
  unfold raise
  induction ids generalizing q with
  | nil => exact h
  | cons id ids ih =>
    refine ih (h.flag (h.running_not_waiting (running id List.mem_cons_self))) ?_
    intro j hj
    rw [flag, modifyTask_frame]
    exact running j (List.mem_cons_of_mem _ hj)

/-! ## What cancelling answers -/

theorem isOpen_iff (q : Queue α) (id : TaskNumber) :
    q.isOpen id = true ↔ ∃ t, q.task? id = some t ∧ t.result = none := by
  rw [isOpen, Option.any_eq_true]
  simp only [Option.isNone_iff_eq_none]

theorem Accounted.isOpen_waiting (h : q.Accounted []) {id : TaskNumber} (hid : id ∈ q.waiting) :
    q.isOpen id = true := by
  obtain ⟨t, ht, rfl⟩ := List.mem_map.mp hid
  rw [isOpen, h.fresh t ht]
  rfl

theorem Accounted.cancel_answer (h : q.Accounted []) (id : TaskNumber) :
    (q.cancel id).1 = q.isOpen id := by
  by_cases waits : id ∈ q.waiting
  · rw [cancel_waiting waits, h.isOpen_waiting waits]
  · rw [cancel_not_waiting waits]
    split
    · exact congrArg Prod.fst (abandon_eq q id)
    · next apart =>
      cases still : q.isOpen id with
      | false => rfl
      | true =>
        rcases h.placed_of_isOpen still with hw | runs
        · exact absurd hw waits
        · exact absurd (List.contains_iff_mem.mpr runs) apart

/-! ## What cancelling changes -/

theorem task?_cancel (q : Queue α) (id j : TaskNumber) : (q.cancel id).2.task? j
    = if j = id ∧ (id ∈ q.waiting ∨ id ∈ q.running)
      then (q.task? j).map (Task.settle true (.error .cancelled)) else q.task? j := by
  have abandoned (q' : Queue α) (tasks : q'.tasks = q.tasks) : (q'.abandon id).2.task? j
      = if j = id then (q.task? j).map (Task.settle true (.error .cancelled)) else q.task? j := by
    have same : q'.task? j = q.task? j := by rw [task?, task?, tasks]
    rw [abandon_eq, ← same]
    exact task?_modifyTask q' id j _
  by_cases waits : id ∈ q.waiting
  · rw [cancel_waiting waits]
    simp only [waits, true_or, and_true]
    exact abandoned _ rfl
  · rw [cancel_not_waiting waits]
    by_cases runs : id ∈ q.running
    · rw [if_pos (List.contains_iff_mem.mpr runs)]
      simp only [runs, or_true, and_true]
      rw [← abandoned q rfl]
      split <;> rfl
    · rw [if_neg fun listed => runs (List.contains_iff_mem.mp listed)]
      simp only [waits, runs, or_self, and_false, if_false]

theorem Accounted.cancel_open (h : q.Accounted []) {id : TaskNumber} (still : q.isOpen id = true) :
    (q.cancel id).2.cancelled = q.cancelled + 1 ∧ (q.cancel id).2.completed = q.completed ∧
      (q.cancel id).2.failed = q.failed ∧ (q.cancel id).2.running = q.running ∧
      (q.cancel id).2.workers = q.workers := by
  have counted : (if q.isOpen id then 1 else 0) = 1 := if_pos still
  by_cases waits : id ∈ q.waiting
  · rw [cancel_waiting waits, abandon_eq, modifyTask_frame]
    exact ⟨congrArg (q.cancelled + ·) counted, rfl, rfl, rfl, rfl⟩
  · have runs : id ∈ q.running := (h.placed_of_isOpen still).resolve_left waits
    rw [cancel_not_waiting waits, if_pos (List.contains_iff_mem.mpr runs), abandon_eq,
      modifyTask_frame, still]
    exact ⟨rfl, rfl, rfl, rfl, rfl⟩

theorem pending_cancel {id : TaskNumber} (waits : id ∉ q.waiting) :
    (q.cancel id).2.pending = q.pending := by
  rw [cancel_not_waiting waits, abandon_eq, modifyTask_frame]
  split
  · dsimp only
    split <;> rfl
  · rfl

theorem Accounted.cancel_late (h : q.Accounted []) {id : TaskNumber} (late : q.isOpen id = false) :
    (∃ tasks, tasks.size = q.tasks.size ∧ (q.cancel id).2 = { q with tasks := tasks }) ∧
      ∀ j, (q.cancel id).2.result? j = q.result? j := by
  have waits : id ∉ q.waiting := by
    intro waits
    rw [h.isOpen_waiting waits] at late
    cases late
  constructor
  · rw [cancel_not_waiting waits, abandon_eq, modifyTask_frame, late]
    split
    · exact ⟨_, size_modifyTask q id _, rfl⟩
    · exact ⟨q.tasks, rfl, rfl⟩
  · intro j
    rw [result?, result?, task?_cancel]
    split
    · next settled =>
      obtain ⟨rfl, _⟩ := settled
      rw [isOpen] at late
      cases ht : q.task? j with
      | none => rfl
      | some t =>
        rw [ht, Option.any_some, Option.isNone_eq_false_iff, Option.isSome_iff_exists] at late
        obtain ⟨r, hr⟩ := late
        simp [Task.settle, hr]
    · rfl

theorem Accounted.upcoming_cancel (h : q.Accounted []) (id : TaskNumber) :
    (q.cancel id).2.pending.upcoming = q.pending.upcoming.filter (·.id != id) := by
  by_cases waits : id ∈ q.waiting
  · have removed : (q.cancel id).2.pending = (q.pending.drain (·.id == id)).2 := by
      rw [cancel_waiting waits, abandon_eq, modifyTask_frame]
      rfl
    rw [removed, Pending.upcoming_drain h.ordered]
    rfl
  · rw [pending_cancel waits, List.filter_eq_self.mpr]
    intro t ht
    rw [bne_iff_ne]
    intro same
    exact waits (same ▸ List.mem_map_of_mem ((Pending.upcoming_perm _).mem_iff.mp ht))

/-! ## The worker of a task that runs -/

theorem Accounted.executed (h : q.Accounted []) {id : TaskNumber} (runs : id ∈ q.running)
    (still : q.isOpen id = true) : ∃ worker : Nat, q.workers[worker]? = some (.executing id) := by
  obtain ⟨w, busy, holds⟩ := List.mem_filterMap.mp (h.held.mem_iff.mp runs)
  have listed : w ∈ q.workers := List.mem_of_mem_filter busy
  obtain ⟨worker, hw⟩ := List.mem_iff_getElem?.mp listed
  refine ⟨worker, ?_⟩
  cases w with
  | executing id' =>
    cases holds
    exact hw
  | recording id' ending =>
    cases holds
    rw [h.ended _ _ busy] at still
    cases still
  | awake | asleep | gone => cases holds

/-- A worker that holds a task goes on with it, until the work ends or its end is
recorded. -/
theorem Accounted.holding_apply (h : q.Accounted []) {worker : Nat} {w : Worker}
    (hw : q.workers[worker]? = some w) (holds : w.task?.isSome = true) {event : QueueEvent α}
    (executes : ∀ id, w = .executing id → ∀ workEnd, event ≠ .finish worker workEnd)
    (records : ∀ id ending, w = .recording id ending → event ≠ .record worker) :
    (q.apply event).workers[worker]? = some w := by
  have apart {i : Nat} (apart : i ≠ worker) (b : Worker) : (q.workers.set i b)[worker]? = some w :=
    (List.getElem?_set_ne apart).trans hw
  -- a worker that is given a task, or woken, held none, so it is another one
  have other {i : Nat} {a : Worker} (hi : q.workers[i]? = some a) (idle : a.task? = none)
      (b : Worker) : (q.workers.set i b)[worker]? = some w := by
    refine apart ?_ b
    rintro rfl
    rw [hw, Option.some.injEq] at hi
    rw [hi, idle] at holds
    cases holds
  have woken : (q.workers.map Worker.woken)[worker]? = some w := by
    rw [List.getElem?_map, hw]
    cases w with
    | executing | recording => rfl
    | awake | asleep | gone => cases holds
  cases event with
  | submit priority choice =>
    rcases workers_submit q priority choice with same | one
    · exact (congrArg (·[worker]?) same).trans hw
    · rcases Worker.wakeOne_cases q.workers choice with same | ⟨i, hi, eq⟩
      · exact (congrArg (·[worker]?) (one.trans same)).trans hw
      · exact (congrArg (·[worker]?) (one.trans eq)).trans (other hi rfl _)
  | look i =>
    rcases h.look_cases i with same | ⟨w, hi, _, eq⟩ | ⟨t, rest, hi, _, _, _, eq⟩
    · exact (congrArg (·.workers[worker]?) same).trans hw
    · exact (congrArg (·.workers[worker]?) eq).trans (other hi rfl _)
    · exact (congrArg (·.workers[worker]?) eq).trans (other hi rfl _)
  | finish i workEnd =>
    rcases finish_cases q i workEnd with ⟨id, hi⟩ | same
    · obtain ⟨_, _, _, _, eq⟩ := finish_frame hi workEnd
      refine (congrArg (·.workers[worker]?) eq).trans (apart ?_ _)
      rintro rfl
      rw [hw, Option.some.injEq] at hi
      exact executes id hi workEnd rfl
    · exact (congrArg (·.workers[worker]?) same).trans hw
  | record i =>
    rcases record_cases q i with ⟨id, ending, hi⟩ | same
    · obtain ⟨_, _, _, recorded, _⟩ := record_eq hi
      refine (congrArg (·.workers[worker]?) recorded).trans (apart ?_ _)
      rintro rfl
      rw [hw, Option.some.injEq] at hi
      exact records id ending hi rfl
    · exact (congrArg (·.workers[worker]?) same).trans hw
  | cancel id => exact (congrArg (·[worker]?) (workers_cancel q id)).trans hw
  | setBackground enabled => exact (congrArg (·[worker]?) (workers_setBackground q enabled)).trans hw
  | pause =>
    show q.pause.workers[worker]? = _
    unfold pause
    split <;> exact hw
  | resume =>
    show q.resume.workers[worker]? = _
    unfold resume
    split
    · exact woken
    · exact hw
  | stop =>
    rcases workers_stop q with same | eq
    · exact (congrArg (·[worker]?) same).trans hw
    · exact (congrArg (·[worker]?) eq).trans woken

theorem Accounted.holding_run (h : q.Accounted []) {worker : Nat} {w : Worker}
    (hw : q.workers[worker]? = some w) (holds : w.task?.isSome = true)
    {events : List (QueueEvent α)}
    (executes : ∀ id, w = .executing id → ∀ workEnd, .finish worker workEnd ∉ events)
    (records : ∀ id ending, w = .recording id ending → .record worker ∉ events) :
    (q.run events).workers[worker]? = some w := by
  unfold run
  induction events generalizing q with
  | nil => exact hw
  | cons event events ih =>
    refine ih (apply_accounted h event) (h.holding_apply hw holds ?_ ?_) ?_ ?_
    · rintro id executing workEnd rfl
      exact executes id executing workEnd List.mem_cons_self
    · rintro id ending recording rfl
      exact records id ending recording List.mem_cons_self
    · intro id executing workEnd listed
      exact executes id executing workEnd (List.mem_cons_of_mem _ listed)
    · intro id ending recording listed
      exact records id ending recording (List.mem_cons_of_mem _ listed)

theorem Accounted.executing_run (h : q.Accounted []) {worker : Nat} {id : TaskNumber}
    (hw : q.workers[worker]? = some (.executing id)) {events : List (QueueEvent α)}
    (goes_on : ∀ workEnd, .finish worker workEnd ∉ events) :
    (q.run events).workers[worker]? = some (.executing id) :=
  h.holding_run hw rfl (fun _ _ => goes_on) nofun

/-! ## What runs no more -/

theorem Accounted.running_apply (h : q.Accounted []) (event : QueueEvent α) {id : TaskNumber}
    (runs : id ∈ (q.apply event).running) : id ∈ q.running ∨ id ∈ q.waiting := by
  have other (entered : ∀ priority choice, event ≠ .submit priority choice)
      (switched : ∀ enabled, event ≠ .setBackground enabled) : id ∈ q.running ∨ id ∈ q.waiting :=
    (h.inside_apply event entered switched).running id runs
  cases event with
  | submit priority choice => exact .inl ((submit_frame q priority choice).1 ▸ runs)
  | setBackground enabled =>
    obtain ⟨_, _, _, _, _, eq⟩ := setBackground_stays q enabled
    exact .inl ((congrArg (·.running) eq) ▸ runs)
  | _ => exact other nofun nofun

/-- **What neither waits nor runs never runs again.** -/
theorem Accounted.absent_run (h : q.Accounted []) {id : TaskNumber} (gone : q.Gone id)
    (apart : id ∉ q.running) (events : List (QueueEvent α)) : id ∉ (q.run events).running := by
  refine (h.run_induction (motive := fun q' => q'.Gone id ∧ id ∉ q'.running) ?_
    ⟨gone, apart⟩ events).2.2
  intro q' h' ⟨gone', apart'⟩ event
  refine ⟨(h'.later_apply event).gone gone', ?_⟩
  intro runs
  rcases h'.running_apply event runs with before | waits
  · exact apart' before
  · exact gone'.2 waits

/-! ## Cancelling -/

/-- **A task is cancelled exactly if it had not ended.** In every reachable state,
whatever tokens works have flagged meanwhile: cancelling a number tells whether it
is that of a task that has not ended. If so, the task ends as cancelled and is
counted, all other tasks are as they were, and what waits goes on waiting in its
order. A task that waited never runs; one that ran is flagged, and executed by its
worker until the work ends. If not, no result changes, and nothing that the queue
shows. Cancelling through the receipt is the same, and ends nothing once the queue
was stopped. -/
theorem cancel_exact (workers : Nat) (paused : Bool) (events : List (QueueEvent α))
    (flags : List TaskNumber)
    (running : ∀ id ∈ flags, id ∈ ((start workers paused).run events).running) :
    let q : Queue α := ((start workers paused).run events).raise flags
    ∀ id,
      let after := (q.cancel id).2
      ((q.cancel id).1 = true ↔ ∃ t, q.task? id = some t ∧ t.result = none) ∧
      ((q.cancel id).1 = true →
        after.result? id = some (.error .cancelled) ∧
        after.cancelled = q.cancelled + 1 ∧ after.completed = q.completed ∧
        after.failed = q.failed ∧
        (∀ j, j ≠ id → after.task? j = q.task? j) ∧
        after.pending.upcoming = q.pending.upcoming.filter (·.id != id) ∧
        after.running = q.running ∧
        (id ∈ q.waiting ∧
            (∀ more, id ∉ after.begins more ∧ id ∉ (after.run more).running) ∨
          id ∈ q.running ∧ after.isFlagged id = true ∧
            ∃ worker : Nat, q.workers[worker]? = some (.executing id) ∧
              ∀ more, (∀ workEnd, .finish worker workEnd ∉ more) →
                (after.run more).workers[worker]? = some (.executing id))) ∧
      ((q.cancel id).1 = false →
        after.pending = q.pending ∧ after.running = q.running ∧
        after.statistics = q.statistics ∧ after.published = q.published ∧
        ∀ j, after.result? j = q.result? j) ∧
      (∀ r : Receipt, r.id = id → r.cancel q = q.cancel id ∧
        (q.stopped = true → (r.cancel q).1 = false)) := by
  intro q id after
  have h : q.Accounted [] := (run_accounted workers paused events).raise running
  have h' : after.Accounted [] := cancel_accounted h id
  refine ⟨?_, ?_, ?_, ?_⟩
  · rw [h.cancel_answer, isOpen_iff]
  · intro done
    have still : q.isOpen id = true := (h.cancel_answer id).symm.trans done
    have placed : id ∈ q.waiting ∨ id ∈ q.running := h.placed_of_isOpen still
    have settled : after.task? id = (q.task? id).map (Task.settle true (.error .cancelled)) := by
      rw [task?_cancel, if_pos ⟨rfl, placed⟩]
    have ended : after.result? id = some (.error .cancelled) := by
      obtain ⟨t, ht, hr⟩ := (isOpen_iff q id).mp still
      rw [result?, settled, ht, Option.map_some, Option.bind_some, Task.settle, hr]
      rfl
    obtain ⟨cancelled, completed, failed, runs, stay⟩ := h.cancel_open still
    refine ⟨ended, cancelled, completed, failed, ?_, h.upcoming_cancel id, runs, ?_⟩
    · intro j other
      rw [task?_cancel, if_neg fun same => other same.1]
    · rcases placed with waits | active
      -- what waited has left for good; what runs stays with its worker
      · have gone := h'.gone_of_result ended
        have apart : id ∉ after.running := by
          rw [runs]
          exact fun active => h.running_not_waiting active waits
        exact .inl ⟨waits, fun more => ⟨h'.begins_not_gone gone more, h'.absent_run gone apart more⟩⟩
      · obtain ⟨worker, hw⟩ := h.executed active still
        refine .inr ⟨active, ?_, worker, hw, ?_⟩
        · obtain ⟨t, ht, _⟩ := (isOpen_iff q id).mp still
          rw [isFlagged, settled, ht, Option.map_some, Option.any_some, Task.settle, Bool.or_true]
        · intro more goes_on
          exact h'.executing_run ((congrArg (·[worker]?) stay).trans hw) goes_on
  · intro late
    obtain ⟨⟨tasks, size, eq⟩, results⟩ := h.cancel_late ((h.cancel_answer id).symm.trans late)
    have eq : after = { q with tasks := tasks } := eq
    have shown : after.statistics = q.statistics := by rw [eq, statistics, statistics, size]
    exact ⟨by rw [eq], by rw [eq], shown, by rw [eq], results⟩
  · rintro r rfl
    refine ⟨rfl, fun off => ?_⟩
    have off : ((start workers paused : Queue α).run events).stopped = true :=
      (congrArg stopped (raise_frame _ flags)).symm.trans off
    show (q.cancel r.id).1 = false
    rw [h.cancel_answer, isOpen_raise]
    exact (run_closed workers paused events off).isOpen r.id

/-- Of three tasks, the first one runs. -/
def queueUp : List (QueueEvent Nat) :=
  [.submit .visible 0, .look 0, .submit .thumbnail 0, .submit .nearby 0]

/-- **Not vacuous**: the first task is cancelled after its work has flagged it, and
keeps its worker while others are cancelled; the second one is cancelled and never
begins, so only the third one waits; and there is no ninth one. -/
theorem cancel_exact_each :
    let q := ((start 1 false).run queueUp).raise [1]
    (q.cancel 1).2.result? 1 = some (.error .cancelled) ∧
    ((q.cancel 1).2.run [.cancel 2, .cancel 1]).workers[0]? = some (.executing 1) ∧
    (q.cancel 2).2.pending.upcoming = [⟨3, .nearby⟩] ∧
    (∀ more, 2 ∉ (q.cancel 2).2.begins more) ∧
    (q.cancel 9).2.statistics = q.statistics := by
  intro q
  have cancels := cancel_exact 1 false queueUp [1] (by decide +kernel)
  have first : (q.cancel 1).1 = true := by decide +kernel
  have second : (q.cancel 2).1 = true := by decide +kernel
  have ninth : (q.cancel 9).1 = false := by decide +kernel
  obtain ⟨_, runs, _, _⟩ := cancels 1
  obtain ⟨ended, _, _, _, _, _, _, place⟩ := runs first
  obtain ⟨_, waits, _, _⟩ := cancels 2
  obtain ⟨_, _, _, _, _, upcoming, _, place'⟩ := waits second
  obtain ⟨_, _, late, _⟩ := cancels 9
  obtain ⟨_, _, shown, _, _⟩ := late ninth
  refine ⟨ended, ?_, ?_, ?_, shown⟩
  · obtain ⟨_, _, worker, hw, kept⟩ := place.resolve_left fun apart => absurd apart.1 (by decide +kernel)
    have workers : q.workers = [.executing 1] := by decide +kernel
    obtain rfl : worker = 0 := by
      have inside := (List.getElem?_eq_some_iff.mp hw).1
      rw [show _ = _ from congrArg List.length workers, List.length_singleton] at inside
      exact Nat.lt_one_iff.mp inside
    exact kept _ (by simp)
  · rw [upcoming]
    decide +kernel
  · have apart : ¬ 2 ∈ q.running := by decide +kernel
    exact fun more => ((place'.resolve_right fun active => apart active.1).2 more).1

end ReadAhead.Queue
