import ReadAhead.Proofs.Queue.Conservation
import ReadAhead.Proofs.Queue.Late
import ReadAhead.Proofs.Queue.Waking

/-!
  Aftermath — what a queue is like once it was stopped

  A queue is stopped by whoever owns it, or by the work of one of its own tasks,
  which then goes on for a while. It makes no difference: stopping is one step, taken
  in any state, and what it leaves is kept by every step that may follow.

  What is proved:
    1. `Accounted.ended_stop`, `Ended.apply` — every task has ended, those that still
       run are flagged, and nobody sleeps (`Ended`); stopping brings this about, and
       no step takes it back.
    2. `Ended.begins_nil`, `Ended.leaves` — no task begins any more, and a worker is
       gone as soon as its work has ended and it has looked at the queue.
    3. `Accounted.result?_stop` — what stopping does to each result.
    4. `stop_settles_all` — all of this in every reachable state.
    5. `stop_settles_all_running` (anti-vacuity) — of five tasks one is rendered,
       and the others end by a cancellation, by stopping, or by coming too late.
-/

namespace ReadAhead.Queue

variable {α : Type} {q : Queue α}

/-- A queue that was stopped: every task has ended, those that run are flagged, and
nobody sleeps. -/
structure Ended (q : Queue α) : Prop where
  stopped : q.stopped = true
  closed : q.Closed
  flagged : ∀ id ∈ q.running, q.isFlagged id = true
  awake : .asleep ∉ q.workers

theorem Later.isFlagged {q' : Queue α} (later : q.Later q') {id : TaskNumber}
    (flagged : q.isFlagged id = true) : q'.isFlagged id = true := by
  obtain ⟨t, ht, raised⟩ := (Option.any_eq_true _ _).mp flagged
  obtain ⟨t', ht', older⟩ := later.ages id t ht
  rw [Queue.isFlagged, ht', Option.any_some]
  exact older.flagged raised

/-! ## Stopping -/

theorem running_abandonAll (q : Queue α) (ids : List TaskNumber) :
    (q.abandonAll ids).running = q.running := by
  rw [abandonAll_frame]

theorem running_stop (on : q.stopped = false) : q.stop.running = q.running := by
  rw [stop_eq on]
  exact (running_abandonAll _ _).trans (running_abandonAll _ _)

theorem Accounted.ended_stop (h : q.Accounted []) (known : q.Known) (on : q.stopped = false) :
    q.stop.Ended where
  stopped := stopped_stop q
  closed := h.closed_stop on
  flagged id runs := by
    rw [running_stop on] at runs
    obtain ⟨t, ht⟩ := known id runs
    rw [isFlagged, h.task?_stop on, if_pos (.inr runs), ht]
    simp [Task.settle]
  awake := by
    rw [stop_eq on]
    exact Worker.asleep_woken _

/-- **No step takes it back.** -/
theorem Ended.apply (e : q.Ended) (h : q.Accounted []) (event : QueueEvent α) :
    (q.apply event).Ended := by
  have off : (q.apply event).stopped = true := by
    rw [h.stopped_apply]
    cases event <;> first | exact e.stopped | rfl
  refine ⟨off, closed_apply h (fun _ => e.closed) event off, ?_, ?_⟩
  · intro id runs
    rcases h.running_apply event runs with before | waits
    · exact (h.later_apply event).isFlagged (e.flagged id before)
    · rw [waiting, h.pending_empty e.closed] at waits
      exact absurd waits List.not_mem_nil
  · exact (h.attended_apply (.of_awake e.awake) event).closed off

theorem Ended.run (e : q.Ended) (h : q.Accounted []) (events : List (QueueEvent α)) :
    (q.run events).Ended :=
  (h.run_induction (fun _ h' e' => e'.apply h') e events).2

theorem run_ended (workers : Nat) (paused : Bool) (events : List (QueueEvent α))
    (off : ((start workers paused).run events).stopped = true) :
    ((start workers paused).run events).Ended := by
  have all : ((start workers paused).run events).Accounted [] ∧
      ((start workers paused).run events).Known ∧
      (((start workers paused).run events).stopped = true →
        ((start workers paused).run events).Ended) := by
    refine run_induction
      (motive := fun q => q.Accounted [] ∧ q.Known ∧ (q.stopped = true → q.Ended)) ?_
      ⟨start_accounted workers paused, start_known workers paused, nofun⟩ events
    intro q event ⟨h, known, ended⟩
    refine ⟨apply_accounted h event, h.known_apply known event, fun off => ?_⟩
    cases on : q.stopped with
    | true => exact (ended on).apply h event
    | false =>
      rw [h.stopped_apply] at off
      cases event with
      | stop => exact h.ended_stop known on
      | _ => exact absurd (on.symm.trans off) Bool.false_ne_true
  exact all.2.2 off

/-! ## Flags raised by works -/

theorem isFlagged_flag {j : TaskNumber} (flagged : q.isFlagged j = true) (id : TaskNumber) :
    (q.flag id).isFlagged j = true := by
  obtain ⟨t, ht, raised⟩ := (Option.any_eq_true _ _).mp flagged
  rw [isFlagged, flag, task?_modifyTask, ht]
  split
  · rfl
  · exact raised

theorem isFlagged_raise {j : TaskNumber} (flagged : q.isFlagged j = true)
    (ids : List TaskNumber) : (q.raise ids).isFlagged j = true := by
  unfold raise
  induction ids generalizing q with
  | nil => exact flagged
  | cons id ids ih => exact ih (isFlagged_flag flagged id)

theorem Ended.raise (e : q.Ended) (ids : List TaskNumber) : (q.raise ids).Ended where
  stopped := (congrArg Queue.stopped (raise_frame q ids)).trans e.stopped
  closed id t ht := by
    have late : (q.raise ids).isOpen id = false := (isOpen_raise q ids id).trans (e.closed.isOpen id)
    rw [isOpen, ht, Option.any_some] at late
    exact Option.isNone_eq_false_iff.mp late
  flagged id runs := by
    rw [raise_frame] at runs
    exact isFlagged_raise (e.flagged id runs) ids
  awake := by
    rw [raise_frame]
    exact e.awake

theorem known_raise (known : q.Known) (ids : List TaskNumber) : (q.raise ids).Known := by
  unfold raise
  induction ids generalizing q with
  | nil => exact known
  | cons id ids ih =>
    apply ih
    intro j runs
    rw [flag, modifyTask_frame] at runs
    obtain ⟨t, ht⟩ := known j runs
    rw [flag, task?_modifyTask, ht]
    split
    · exact ⟨_, rfl⟩
    · exact ⟨t, rfl⟩

/-! ## Beginning and leaving -/

theorem Ended.begins_nil (e : q.Ended) (h : q.Accounted []) (events : List (QueueEvent α)) :
    q.begins events = [] := by
  induction events generalizing q with
  | nil => rfl
  | cons event events ih =>
    rcases h.begun_cases event with none_begins | ⟨_, _, _, _, _, on, _⟩
    · rw [begins, none_begins, ih (e.apply h event) (apply_accounted h event)]
      rfl
    · exact absurd (on.symm.trans e.stopped) Bool.false_ne_true

theorem look_stopped {worker : Nat} (off : q.stopped = true)
    (hw : q.workers[worker]? = some .awake) : (q.look worker).workers[worker]? = some .gone := by
  have inside := (List.getElem?_eq_some_iff.mp hw).1
  rw [look, if_pos hw, if_pos off]
  exact List.getElem?_set_self inside

theorem record_look_stopped {worker : Nat} (off : q.stopped = true) {id : TaskNumber}
    {ending : Option Ending} (hw : q.workers[worker]? = some (.recording id ending)) :
    ((q.record worker).look worker).workers[worker]? = some .gone := by
  have inside := (List.getElem?_eq_some_iff.mp hw).1
  obtain ⟨_, _, _, recorded, _⟩ := record_eq hw
  rw [recorded]
  exact look_stopped off (List.getElem?_set_self inside)

/-- Once its work has ended and it has recorded that, a worker that looks at the
queue is gone. -/
theorem Ended.leaves (e : q.Ended) {worker : Nat} (inside : worker < q.workers.length)
    (workEnd : WorkEnd α) :
    (q.run [.finish worker workEnd, .record worker, .look worker]).workers[worker]?
      = some .gone := by
  show (((q.finish worker workEnd).record worker).look worker).workers[worker]? = some .gone
  have idle (finished : ∀ id, q.workers[worker]? ≠ some (.executing id)) :
      q.finish worker workEnd = q := by
    rcases finish_cases q worker workEnd with ⟨id, hw⟩ | same
    · exact absurd hw (finished id)
    · exact same
  have quiet (recorded : ∀ id ending, q.workers[worker]? ≠ some (.recording id ending)) :
      q.record worker = q := by
    rcases record_cases q worker with ⟨id, ending, hw⟩ | same
    · exact absurd hw (recorded id ending)
    · exact same
  have hw : q.workers[worker]? = some q.workers[worker] := List.getElem?_eq_getElem inside
  cases doing : q.workers[worker] with
  | executing id =>
    rw [doing] at hw
    obtain ⟨tasks, ending, _, _, eq⟩ := finish_frame hw workEnd
    rw [eq]
    exact record_look_stopped e.stopped (List.getElem?_set_self inside)
  | recording id ending =>
    rw [doing] at hw
    rw [idle (by simp [hw])]
    exact record_look_stopped e.stopped hw
  | awake =>
    rw [doing] at hw
    rw [idle (by simp [hw]), quiet (by simp [hw])]
    exact look_stopped e.stopped hw
  | gone =>
    rw [doing] at hw
    rw [idle (by simp [hw]), quiet (by simp [hw]), look, if_neg (by simp [hw])]
    exact hw
  | asleep => exact absurd (doing ▸ List.getElem_mem inside) e.awake

/-! ## Results and counters -/

/-- **Stopping cancels what has not ended, and nothing else.** -/
theorem Accounted.result?_stop (h : q.Accounted []) (closed : q.stopped = true → q.Closed)
    {id : TaskNumber} (known : (q.task? id).isSome = true) :
    q.stop.result? id = some ((q.result? id).getD (.error .cancelled)) := by
  obtain ⟨t, ht⟩ := Option.isSome_iff_exists.mp known
  have result : q.result? id = t.result := by rw [result?, ht, Option.bind_some]
  have kept (ended : t.result.isSome = true) : t.result = some (t.result.getD (.error .cancelled)) := by
    obtain ⟨r, hr⟩ := Option.isSome_iff_exists.mp ended
    rw [hr]
    rfl
  rw [result]
  cases on : q.stopped with
  | true =>
    rw [stop_again on, result]
    exact kept (closed on id t ht)
  | false =>
    rw [result?, h.task?_stop on, ht]
    split
    · rfl
    · next apart =>
      apply kept
      cases hr : t.result with
      | some r => rfl
      | none => exact absurd (h.placed_of_open ht hr) apart

theorem size_stop (q : Queue α) : q.stop.tasks.size = q.tasks.size := by
  cases on : q.stopped with
  | true => rw [stop_again on]
  | false =>
    rw [stop_eq on]
    exact (size_abandonAll _ _).trans (size_abandonAll _ _)

theorem Closed.none_open (closed : q.Closed) : q.tasks.countP (·.result.isNone) = 0 := by
  apply Array.countP_eq_zero.mpr
  intro t ht
  obtain ⟨i, hi, rfl⟩ := Array.mem_iff_getElem.mp ht
  have found : q.task? (i + 1) = some q.tasks[i] := by
    rw [task?, if_neg (Nat.succ_ne_zero i)]
    exact Array.getElem?_eq_getElem hi
  simp [Option.isSome_iff_ne_none.mp (closed _ _ found)]

/-- Where all tasks have ended and no end is about to be recorded, the counters
make up all that were submitted. -/
theorem Accounted.submitted_eq (h : q.Accounted []) (closed : q.Closed)
    (recorded : ∀ id ending, .recording id ending ∉ q.workers) :
    q.statistics.submitted = q.completed + q.failed + q.cancelled := by
  have all := h.size_eq recorded
  rw [closed.none_open] at all
  exact all

/-- **Stopping a queue leaves nothing open.** From every reachable state, whatever
tokens works have flagged meanwhile: stopping ends every task that has not ended as
cancelled, and keeps all results that are there. Whatever happens then, nothing waits,
all tasks have ended, also those that come later, and those that still run are
flagged; no task begins, nothing is left to be cancelled, and stopping again changes
nothing. A worker is gone once its work has ended, and when all are, the counters make
up all that were submitted. -/
theorem stop_settles_all (workers : Nat) (paused : Bool) (events : List (QueueEvent α))
    (flags : List TaskNumber)
    (running : ∀ id ∈ flags, id ∈ ((start workers paused).run events).running) :
    let q : Queue α := ((start workers paused).run events).raise flags
    let ended := q.stop
    ended.tasks.size = q.tasks.size ∧
    ∀ more,
      let later := ended.run more
      (∀ id, (q.task? id).isSome = true →
        later.result? id = some ((q.result? id).getD (.error .cancelled))) ∧
      (∀ id t, later.task? id = some t → t.result.isSome = true) ∧
      later.pending = .empty ∧
      (∀ id ∈ later.running, later.isFlagged id = true) ∧
      ended.begins more = [] ∧
      (∀ id, (later.cancel id).1 = false) ∧
      (∀ r : Receipt, (r.cancel later).1 = false) ∧
      later.stop = later ∧
      (∀ worker < later.workers.length, ∀ workEnd,
        (later.run [.finish worker workEnd, .record worker, .look worker]).workers[worker]?
          = some .gone) ∧
      ((∀ w ∈ later.workers, w = .gone) →
        later.statistics.submitted = later.completed + later.failed + later.cancelled) := by
  intro q ended
  have h : q.Accounted [] := (run_accounted workers paused events).raise running
  have before : q.stopped = true → q.Ended := by
    intro off
    have off : ((start workers paused : Queue α).run events).stopped = true :=
      (congrArg stopped (raise_frame _ flags)).symm.trans off
    exact (run_ended workers paused events off).raise flags
  have h' : ended.Accounted [] := stop_accounted h
  have e : ended.Ended := by
    cases on : q.stopped with
    | true =>
      show q.stop.Ended
      rw [stop_again on]
      exact before on
    | false => exact h.ended_stop (known_raise (run_known workers paused events) flags) on
  refine ⟨size_stop q, fun more => ?_⟩
  intro later
  obtain ⟨h'', aged⟩ := h'.later_run more
  have e' : later.Ended := e.run h' more
  have answer (id : TaskNumber) : (later.cancel id).1 = false := by
    rw [h''.cancel_answer, e'.closed.isOpen]
  refine ⟨?_, e'.closed, h''.pending_empty e'.closed, e'.flagged, e.begins_nil h' more, answer,
    fun r => answer r.id, stop_again e'.stopped, fun worker inside => e'.leaves inside, ?_⟩
  · intro id known
    exact aged.result_kept id _ (h.result?_stop (fun off => (before off).closed) known)
  · intro gone
    refine h''.submitted_eq e'.closed ?_
    intro id ending about
    cases gone _ about

/-- Two workers: the first task runs, the second one was rendered, the third one was
cancelled and goes on, and the fourth one waits, as the queue is paused. -/
def halfway : List (QueueEvent Nat) :=
  [.submit .visible 0, .look 0, .submit .nearby 0, .look 1, .finish 1 ⟨.value 7, false⟩,
    .record 1, .submit .thumbnail 0, .look 1, .cancel 3, .pause, .submit .visible 0]

/-- A fifth task is submitted, and the works of both workers end. -/
def leaving : List (QueueEvent Nat) :=
  [.submit .visible 0, .finish 0 ⟨.value 8, false⟩, .record 0, .look 0,
    .finish 1 ⟨.crash none, false⟩, .record 1, .look 1]

/-- **Not vacuous**: the work of the first task flags its token and has the queue
stopped; the second task keeps its value, and the other four are cancelled. -/
theorem stop_settles_all_running :
    let q := ((start 2 false).run halfway).raise [1]
    let later := q.stop.run leaving
    q.result? 1 = none ∧ later.result? 1 = some (.error .cancelled) ∧
    later.result? 2 = some (.ok 7) ∧ q.stop.running = [3, 1] ∧ q.stop.isFlagged 3 = true ∧
    q.stop.begins leaving = [] ∧ later.cancelled = 4 ∧
    later.statistics.submitted = later.completed + later.failed + later.cancelled := by
  intro q later
  obtain ⟨_, settled⟩ := stop_settles_all 2 false halfway [1] (by decide +kernel)
  obtain ⟨_, _, _, flagged, _⟩ := settled []
  obtain ⟨results, _, _, _, begins, _, _, _, _, counted⟩ := settled leaving
  have first : q.result? 1 = none := by decide +kernel
  have second : q.result? 2 = some (.ok 7) := by decide +kernel
  have runs : q.stop.running = [3, 1] := by decide +kernel
  refine ⟨first, ?_, ?_, runs, flagged 3 (runs ▸ List.mem_cons_self), begins, by decide +kernel, ?_⟩
  · calc later.result? 1
      _ = some ((q.result? 1).getD (.error .cancelled)) := results 1 (by decide +kernel)
      _ = some (.error .cancelled) := by rw [first]; rfl
  · calc later.result? 2
      _ = some ((q.result? 2).getD (.error .cancelled)) := results 2 (by decide +kernel)
      _ = some (.ok 7) := by rw [second]; rfl
  · exact counted (by decide +kernel)

end ReadAhead.Queue
