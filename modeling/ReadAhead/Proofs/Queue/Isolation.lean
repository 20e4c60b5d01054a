import ReadAhead.Proofs.Queue.Alike
import ReadAhead.Proofs.Queue.Late
import ReadAhead.Proofs.Queue.Report

/-!
  Isolation — how the work of a task ends concerns nobody else

  Two runs of a queue are compared. They take the same steps, but for one: the work
  of one task ends in two different ways. From then on the queues are alike. They may
  count the task under different counters; as the sum is the same and no counter ever
  falls, they publish something new at the same points all the same.

  A breakdown leaves something behind, and here this is let go of without another one.
  `Proofs/Queue/Crew` tells what becomes of the queue otherwise.

  What is proved:
    1. `Alike.quiet` — where one of two queues that are alike keeps its statistics in
       a step, so does the other.
    2. `Paired.run`, `Paired.begins` — over any run, the queues stay alike, publish as
       often, and the same tasks begin in the same order.
    3. `alike_finish` — the queues are alike once the work has ended.
    4. `work_end_isolated` — two ways in which work can end differ in nothing that
       others can see, and not at all if the task was cancelled before.
-/

namespace ReadAhead

/-- Statistics, without the counters of ended tasks. -/
def QueueStatistics.uncounted (s : QueueStatistics) : QueueStatistics :=
  { s with completed := 0, failed := 0, cancelled := 0 }

namespace Queue

variable {α : Type} {q q' : Queue α} {id : TaskNumber}

/-! ## What queues that are alike show -/

namespace Alike

theorem uncounted (a : q.Alike id q') : q'.statistics.uncounted = q.statistics.uncounted := by
  simp only [statistics, QueueStatistics.uncounted, a.size, a.pending, a.running, a.background,
    a.paused]

/-- Where the statistics of one queue stay the same, so do those of the other: no
counter rises there, as none falls and the sum is the same. -/
theorem quiet {p p' : Queue α} (a : q.Alike id q') (b : p.Alike id p')
    (rises : ∀ e, q'.counter e ≤ p'.counter e) (same : p.statistics = q.statistics) :
    p'.statistics = q'.statistics := by
  have apart : p'.statistics.uncounted = q'.statistics.uncounted := by
    rw [b.uncounted, a.uncounted, same]
  have completed : p.completed = q.completed := congrArg QueueStatistics.completed same
  have failed : p.failed = q.failed := congrArg QueueStatistics.failed same
  have cancelled : p.cancelled = q.cancelled := congrArg QueueStatistics.cancelled same
  have total := a.total
  have total' := b.total
  -- the sum is the same before and after, so no counter can have risen
  have completed' : q'.completed ≤ p'.completed := rises .completed
  have failed' : q'.failed ≤ p'.failed := rises .failed
  have cancelled' : q'.cancelled ≤ p'.cancelled := rises .cancelled
  have counters : p'.completed = q'.completed ∧ p'.failed = q'.failed ∧
      p'.cancelled = q'.cancelled := by
    omega
  simp only [statistics, QueueStatistics.uncounted, QueueStatistics.mk.injEq, true_and] at apart ⊢
  obtain ⟨submitted, others⟩ := apart
  exact ⟨submitted, counters.1, counters.2.1, counters.2.2, others⟩

end Alike

/-! ## Runs that are alike -/

/-- Queues that are alike and have published as often. -/
structure Paired (id : TaskNumber) (q q' : Queue α) : Prop where
  alike : q.Alike id q'
  first : q.Accounted []
  second : q'.Accounted []
  reported : q.Reported
  reported' : q'.Reported
  version : q'.published.version = q.published.version

namespace Paired

theorem version_apply (p : q.Paired id q') (event : QueueEvent α) :
    (q'.apply event).published.version = (q.apply event).published.version := by
  have alike := p.alike.apply p.first p.second event
  -- a version is the number of changes, so both queues have to change at once
  have shows : q'.published.value = (q'.apply event).statistics
      ↔ q.published.value = (q.apply event).statistics := by
    rw [show q.published.value = _ from p.reported, show q'.published.value = _ from p.reported']
    constructor
    · intro same
      exact (p.alike.symm.quiet alike.symm (p.first.counter_apply event) same.symm).symm
    · intro same
      exact (p.alike.quiet alike (p.second.counter_apply event) same.symm).symm
  rw [p.first.published_apply p.reported, p.second.published_apply p.reported',
    Stream.publish, Stream.publish]
  simp only [beq_iff_eq, shows]
  split
  · exact p.version
  · exact congrArg (· + 1) p.version

theorem apply (p : q.Paired id q') (event : QueueEvent α) :
    (q.apply event).Paired id (q'.apply event) where
  alike := p.alike.apply p.first p.second event
  first := apply_accounted p.first event
  second := apply_accounted p.second event
  reported := p.first.reported_apply p.reported event
  reported' := p.second.reported_apply p.reported' event
  version := p.version_apply event

theorem run (p : q.Paired id q') (events : List (QueueEvent α)) :
    (q.run events).Paired id (q'.run events) := by
  unfold Queue.run
  induction events generalizing q q' with
  | nil => exact p
  | cons event events ih => exact ih (p.apply event)

theorem begun (p : q.Paired id q') (event : QueueEvent α) : q'.begun event = q.begun event := by
  rw [Queue.begun, Queue.begun, ← Worker.begun_veil id q'.workers, ← Worker.begun_veil id q.workers,
    p.alike.workers, (p.apply event).alike.workers]

/-- **The same tasks begin, in the same order.** -/
theorem begins (p : q.Paired id q') (events : List (QueueEvent α)) :
    q'.begins events = q.begins events := by
  induction events generalizing q q' with
  | nil => rfl
  | cons event events ih => rw [Queue.begins, Queue.begins, p.begun event, ih (p.apply event)]

end Paired

/-! ## What can be told apart -/

/-- Queues that agree on everything that is not about one task: they differ in how
it ended, in what a worker is about to record of it, and in the counters, which have
the same sum. -/
structure AgreeBeside (id : TaskNumber) (q q' : Queue α) : Prop where
  /-- Every other task is flagged or not, and has ended or not, in the same way. -/
  tasks : ∀ j, j ≠ id → q'.task? j = q.task? j
  pending : q'.pending = q.pending
  running : q'.running = q.running
  workers : ∀ i : Nat, q'.workers[i]? = q.workers[i]? ∨ ∃ ending ending',
    q.workers[i]? = some (.recording id ending) ∧ q'.workers[i]? = some (.recording id ending')
  paused : q'.paused = q.paused
  background : q'.backgroundEnabled = q.backgroundEnabled
  stopped : q'.stopped = q.stopped
  statistics : q'.statistics.uncounted = q.statistics.uncounted
  total : q'.completed + q'.failed + q'.cancelled = q.completed + q.failed + q.cancelled
  published : q'.published.value.uncounted = q.published.value.uncounted
  version : q'.published.version = q.published.version
  submits : ∀ priority choice, (q'.submit priority choice).1 = (q.submit priority choice).1
  cancels : ∀ j, (q'.cancel j).1 = (q.cancel j).1
  polls : ∀ r : Receipt, r.id ≠ id → r.poll q' = r.poll q

theorem Paired.agreeBeside (p : q.Paired id q') : q.AgreeBeside id q' where
  tasks := p.alike.others
  pending := p.alike.pending
  running := p.alike.running
  workers i := by
    rcases p.alike.worker_cases i with same | ⟨ending, ending', hw, hw', _⟩
    · exact .inl same
    · exact .inr ⟨ending, ending', hw, hw'⟩
  paused := p.alike.paused
  background := p.alike.background
  stopped := p.alike.stopped
  statistics := p.alike.uncounted
  total := p.alike.total
  published := by
    rw [show q.published.value = _ from p.reported, show q'.published.value = _ from p.reported',
      p.alike.uncounted]
  version := p.version
  submits _ _ := congrArg (· + 1) p.alike.size
  cancels j := by rw [p.second.cancel_answer, p.first.cancel_answer, p.alike.isOpen]
  polls r other := by
    rw [Receipt.poll, Receipt.poll, result?, result?, p.alike.others r.id other]

/-! ## The end of work -/

theorem alike_finish {worker : Nat} (hw : q.workers[worker]? = some (.executing id))
    (known : ∃ t, q.task? id = some t) (e e' : WorkEnd α) :
    (q.finish worker e).Alike id (q.finish worker e') := by
  obtain ⟨t, ht⟩ := known
  have table := task?_finish hw e
  have table' := task?_finish hw e'
  obtain ⟨tasks, ending, size, books, eq⟩ := finish_frame hw e
  obtain ⟨tasks', ending', size', books', eq'⟩ := finish_frame hw e'
  have veiled : (Worker.recording id ending').veil id = (Worker.recording id ending).veil id :=
    Worker.veil_recording id id (absurd rfl) (books'.trans books.symm)
  rw [eq] at table ⊢
  rw [eq'] at table' ⊢
  exact {
    size := size'.trans size.symm
    others := fun j other => by rw [table', table, if_neg other, if_neg other]
    ended := by
      refine ⟨t.settle e.flagsToken (q.answer id e), t.settle e'.flagsToken (q.answer id e'),
        ?_, ?_, rfl, rfl, rfl⟩
      · rw [table, if_pos rfl, ht, Option.map_some]
      · rw [table', if_pos rfl, ht, Option.map_some]
    pending := rfl
    running := rfl
    workers := by
      show (q.workers.set worker _).map _ = (q.workers.set worker _).map _
      rw [List.map_set, List.map_set, veiled]
    background := rfl
    paused := rfl
    stopped := rfl
    total := rfl }

theorem result?_finish {worker : Nat} (hw : q.workers[worker]? = some (.executing id))
    (known : ∃ t, q.task? id = some t) (e : WorkEnd α) :
    (q.finish worker e).result? id = some ((q.result? id).getD (q.answer id e)) := by
  obtain ⟨t, ht⟩ := known
  rw [result?, result?, task?_finish hw, if_pos rfl, ht, Option.map_some, Option.bind_some,
    Option.bind_some]
  rfl

theorem paired_finish (h : q.Accounted []) (r : q.Reported) {worker : Nat}
    (hw : q.workers[worker]? = some (.executing id)) (known : ∃ t, q.task? id = some t)
    (e e' : WorkEnd α) : (q.finish worker e).Paired id (q.finish worker e') where
  alike := alike_finish hw known e e'
  first := finish_accounted h worker e
  second := finish_accounted h worker e'
  reported := h.reported_apply r (.finish worker e)
  reported' := h.reported_apply r (.finish worker e')
  version := by
    have silent (e : WorkEnd α) : (q.finish worker e).published = q.published := by
      obtain ⟨_, _, _, _, eq⟩ := finish_frame hw e
      rw [eq]
    rw [silent e, silent e']

/-- **How the work of a task ends concerns this task only.** In whatever reachable
state a worker executes it: let its work end in one way or in another, and let the
same steps follow. The same tasks begin in the same order, and after every step the
queues agree on all that is not about the task; it has ended as its work came to, or
as it had before. If it was cancelled before, what the work comes to is discarded:
the queues are equal, the result stays, and nothing is counted when the worker records
the end. -/
theorem work_end_isolated (workers : Nat) (paused : Bool) (before : List (QueueEvent α))
    (worker : Nat) (id : TaskNumber)
    (runs : ((start workers paused).run before).workers[worker]? = some (.executing id))
    (e e' : WorkEnd α) :
    let q : Queue α := (start workers paused).run before
    (∀ after,
      q.begins (.finish worker e' :: after) = q.begins (.finish worker e :: after) ∧
      (q.run (.finish worker e :: after)).AgreeBeside id (q.run (.finish worker e' :: after)) ∧
      (q.run (.finish worker e :: after)).result? id
        = some ((q.result? id).getD (q.answer id e)) ∧
      (q.run (.finish worker e' :: after)).result? id
        = some ((q.result? id).getD (q.answer id e'))) ∧
    (q.result? id = some (.error .cancelled) →
      q.finish worker e = q.setWorker worker (.recording id none) ∧
      ∀ after,
        q.run (.finish worker e' :: after) = q.run (.finish worker e :: after) ∧
        (q.run (.finish worker e :: after)).result? id = some (.error .cancelled) ∧
        (.record worker ∉ after → ∀ c,
          ((q.run (.finish worker e :: after)).record worker).counter c
            = (q.run (.finish worker e :: after)).counter c)) := by
  intro q
  have h : q.Accounted [] := run_accounted workers paused before
  have marked : q.Marked := run_marked workers paused before
  have executes : q.begun (.finish worker e') = q.begun (.finish worker e) := by
    -- a step begins a task only if a worker looks at the queue
    have none_begun (e : WorkEnd α) : q.begun (.finish worker e) = [] := by
      rcases h.begun_cases (.finish worker e) with nothing | ⟨_, _, _, look, _⟩
      · exact nothing
      · cases look
    rw [none_begun, none_begun]
  constructor
  · intro after
    have known : ∃ t, q.task? id = some t :=
      run_known workers paused before id (h.running_of_executing runs)
    have ended (e : WorkEnd α) : (q.run (.finish worker e :: after)).result? id
        = some ((q.result? id).getD (q.answer id e)) :=
      ((finish_accounted h worker e).later_run after).2.result_kept id _
        (result?_finish runs known e)
    have start := paired_finish h (run_reported workers paused before) runs known e e'
    refine ⟨?_, (start.run after).agreeBeside, ended e, ended e'⟩
    rw [begins, begins, executes]
    exact congrArg _ (start.begins after)
  · intro cancelled
    have discarded := finish_discarded marked runs cancelled
    refine ⟨discarded e, ?_⟩
    intro after
    refine ⟨?_, ?_, ?_⟩
    · show (q.finish worker e').run after = (q.finish worker e).run after
      rw [discarded e, discarded e']
    · exact (h.later_run (.finish worker e :: after)).2.result_kept id _ cancelled
    · exact fun waits => h.discarded_uncounted marked runs cancelled e waits

end Queue

end ReadAhead
