import ReadAhead.Proofs.Queue.Shutdown

/-!
  Queues that are alike — what no step looks at

  Two queues are `Alike` that differ in how one task ended, in what a worker is about
  to record for it, and in the counters, which have the same sum. No step looks at any
  of these, so the queues stay alike.

  What is proved:
    1. `Worker.veil_cases` — workers are the same up to what they record of one task,
       if they are the same or both are about to record it.
    2. `Alike.settle`, `Alike.abandonAll`, `Alike.enter` — parts of steps keep queues
       alike, as the task that differs has ended in both.
    3. `Alike.apply` — so does every step.
-/

namespace ReadAhead

/-! ## Workers, up to what they record -/

namespace Worker

/-- A worker, without the counter under which it is about to record the end of one
task. -/
def veil (id : TaskNumber) : Worker → Worker
  | recording j ending => recording j (if j = id then ending.map fun _ => .cancelled else ending)
  | w => w

/-- Workers that are the same up to that are the same, or are about to record the
end of the task. -/
theorem veil_cases {id : TaskNumber} {w w' : Worker} (h : w'.veil id = w.veil id) :
    w' = w ∨ ∃ ending ending', w = recording id ending ∧ w' = recording id ending' ∧
      ending'.isSome = ending.isSome := by
  cases w with
  | recording j ending =>
    cases w' with
    | recording j' ending' =>
      simp only [veil, recording.injEq] at h
      obtain ⟨rfl, same⟩ := h
      by_cases here : j' = id
      · subst here
        rw [if_pos rfl, if_pos rfl] at same
        refine .inr ⟨ending, ending', rfl, rfl, ?_⟩
        have some := congrArg Option.isSome same
        rwa [Option.isSome_map, Option.isSome_map] at some
      · rw [if_neg here, if_neg here] at same
        exact .inl (by rw [same])
    | awake | asleep | executing | gone => cases h
  | awake | asleep | executing | gone =>
    cases w' with
    | recording => cases h
    | awake | asleep | executing | gone => exact .inl h

theorem veil_recording (id j : TaskNumber) {ending ending' : Option Ending}
    (same : j ≠ id → ending' = ending) (some : ending'.isSome = ending.isSome) :
    (recording j ending').veil id = (recording j ending).veil id := by
  by_cases here : j = id
  · simp only [veil, if_pos here]
    cases ending <;> cases ending' <;> first | rfl | cases some
  · rw [same here]

theorem veil_woken (id : TaskNumber) (w : Worker) : w.woken.veil id = (w.veil id).woken := by
  cases w <;> rfl

theorem veil_eq_iff {id : TaskNumber} {w v : Worker} (other : ∀ j ending, v ≠ recording j ending) :
    w.veil id = v ↔ w = v := by
  cases w with
  | recording j ending =>
    constructor
    · exact fun h => absurd h.symm (other _ _)
    · exact fun h => absurd h.symm (other _ _)
  | awake | asleep | executing | gone => exact Iff.rfl

theorem veil_wakeOne (id : TaskNumber) (ws : List Worker) (choice : Nat) :
    (wakeOne ws choice).map (veil id) = wakeOne (ws.map (veil id)) choice := by
  have sleeps (w : Worker) : w.veil id = asleep ↔ w = asleep := veil_eq_iff nofun
  have found : (ws.map (veil id)).findIdx? (· == asleep) = ws.findIdx? (· == asleep) := by
    rw [List.findIdx?_map]
    congr 1
    funext w
    rw [Function.comp_apply, Bool.eq_iff_iff, beq_iff_eq, beq_iff_eq, sleeps]
  have chosen : (ws.map (veil id))[choice]? = some asleep ↔ ws[choice]? = some asleep := by
    rw [List.getElem?_map, Option.map_eq_some_iff]
    simp only [sleeps, exists_eq_right]
  unfold wakeOne
  rw [found]
  by_cases asked : ws[choice]? = some asleep
  · rw [if_pos asked, if_pos (chosen.mpr asked), List.map_set]
    rfl
  · rw [if_neg asked, if_neg (mt chosen.mp asked)]
    cases ws.findIdx? (· == asleep) with
    | none => rfl
    | some i =>
      dsimp only
      rw [List.map_set]
      rfl

theorem begins_veil (id : TaskNumber) (a b : Worker) :
    (a.veil id).begins (b.veil id) = a.begins b := by
  cases b with
  | executing j =>
    show (if a.veil id = executing j then none else some j) = if a = executing j then none else some j
    simp only [veil_eq_iff (v := executing j) nofun]
  | recording | awake | asleep | gone => rfl

theorem begun_veil (id : TaskNumber) (before after : List Worker) :
    begun (before.map (veil id)) (after.map (veil id)) = begun before after := by
  unfold begun
  rw [List.zip_map, List.filterMap_map]
  congr 1
  funext p
  exact begins_veil id p.1 p.2

end Worker

namespace Queue

variable {α : Type} {q q' : Queue α} {id : TaskNumber}

/-! ## Queues that are alike -/

/-- Queues that differ in how one task ended, in what is to be recorded of it, and
in the counters, which have the same sum. -/
structure Alike (id : TaskNumber) (q q' : Queue α) : Prop where
  size : q'.tasks.size = q.tasks.size
  others : ∀ j, j ≠ id → q'.task? j = q.task? j
  ended : ∃ t t', q.task? id = some t ∧ q'.task? id = some t' ∧ t'.priority = t.priority ∧
    t.result.isSome = true ∧ t'.result.isSome = true
  pending : q'.pending = q.pending
  running : q'.running = q.running
  workers : q'.workers.map (Worker.veil id) = q.workers.map (Worker.veil id)
  background : q'.backgroundEnabled = q.backgroundEnabled
  paused : q'.paused = q.paused
  stopped : q'.stopped = q.stopped
  total : q'.completed + q'.failed + q'.cancelled = q.completed + q.failed + q.cancelled

namespace Alike

theorem symm (a : q.Alike id q') : q'.Alike id q where
  size := a.size.symm
  others j other := (a.others j other).symm
  ended := by
    obtain ⟨t, t', ht, ht', priority, hr, hr'⟩ := a.ended
    exact ⟨t', t, ht', ht, priority.symm, hr', hr⟩
  pending := a.pending.symm
  running := a.running.symm
  workers := a.workers.symm
  background := a.background.symm
  paused := a.paused.symm
  stopped := a.stopped.symm
  total := a.total.symm

/-- One of them has a task open if the other has; the task that differs has ended. -/
theorem isOpen (a : q.Alike id q') (j : TaskNumber) : q'.isOpen j = q.isOpen j := by
  by_cases here : j = id
  · subst here
    obtain ⟨t, t', ht, ht', _, hr, hr'⟩ := a.ended
    rw [Queue.isOpen, Queue.isOpen, ht, ht', Option.any_some, Option.any_some,
      Option.isNone_eq_false_iff.mpr hr, Option.isNone_eq_false_iff.mpr hr']
  · rw [Queue.isOpen, Queue.isOpen, a.others j here]

theorem isBackground (a : q.Alike id q') : q'.isBackground = q.isBackground := by
  funext j
  by_cases here : j = id
  · subst here
    obtain ⟨t, t', ht, ht', priority, _, _⟩ := a.ended
    rw [isBackground_eq ht, isBackground_eq ht', priority]
  · rw [Queue.isBackground, Queue.isBackground, a.others j here]

theorem waiting (a : q.Alike id q') : q'.waiting = q.waiting := by
  rw [Queue.waiting, Queue.waiting, a.pending]

theorem answer (a : q.Alike id q') {j : TaskNumber} (other : j ≠ id) (e : WorkEnd α) :
    q'.answer j e = q.answer j e := by
  rw [Queue.answer, Queue.answer, isFlagged, isFlagged, a.others j other]

theorem worker_cases (a : q.Alike id q') (i : Nat) :
    q'.workers[i]? = q.workers[i]? ∨ ∃ ending ending',
      q.workers[i]? = some (.recording id ending) ∧
      q'.workers[i]? = some (.recording id ending') ∧ ending'.isSome = ending.isSome := by
  have same := congrArg (·[i]?) a.workers
  simp only [List.getElem?_map] at same
  cases hw : q.workers[i]? with
  | none =>
    rw [hw, Option.map_none, Option.map_eq_none_iff] at same
    exact .inl same
  | some w =>
    rw [hw, Option.map_some, Option.map_eq_some_iff] at same
    obtain ⟨w', hw', same⟩ := same
    rcases Worker.veil_cases same with rfl | ⟨ending, ending', rfl, rfl, books⟩
    · exact .inl hw'
    · exact .inr ⟨ending, ending', rfl, hw', books⟩

/-! ### Parts of steps -/

theorem publish (a : q.Alike id q') : q.publish.Alike id q'.publish := { a with }

theorem setWorker (a : q.Alike id q') (i : Nat) {w w' : Worker} (same : w'.veil id = w.veil id) :
    (q.setWorker i w).Alike id (q'.setWorker i w') :=
  { a with
    workers := by
      show (q'.workers.set i w').map _ = (q.workers.set i w).map _
      rw [List.map_set, List.map_set, a.workers, same] }

theorem wakeAll (a : q.Alike id q') : q.wakeAll.Alike id q'.wakeAll :=
  { a with
    workers := by
      have woken (ws : List Worker) :
          (ws.map Worker.woken).map (Worker.veil id) = (ws.map (Worker.veil id)).map Worker.woken := by
        rw [List.map_map, List.map_map]
        exact List.map_congr_left fun w _ => Worker.veil_woken id w
      show (q'.workers.map Worker.woken).map _ = (q.workers.map Worker.woken).map _
      rw [woken, woken, a.workers] }

theorem table (a : q.Alike id q') {tasks tasks' : Array (Task α)} (size : tasks'.size = tasks.size)
    (others : ∀ j, j ≠ id → task? { q' with tasks := tasks' } j = task? { q with tasks := tasks } j)
    (ended : ∃ t t', task? { q with tasks := tasks } id = some t ∧
      task? { q' with tasks := tasks' } id = some t' ∧ t'.priority = t.priority ∧
      t.result.isSome = true ∧ t'.result.isSome = true) :
    Alike id { q with tasks := tasks } { q' with tasks := tasks' } :=
  { a with size := size, others := others, ended := ended }

/-- Settling a task keeps queues alike; only the task that differs may be settled
differently. -/
theorem settle (a : q.Alike id q') (j : TaskNumber) {flag flag' : Bool}
    {result result' : TaskAnswer α} (same : j ≠ id → flag' = flag ∧ result' = result) :
    (q.modifyTask j (Task.settle flag result)).Alike id
      (q'.modifyTask j (Task.settle flag' result')) := by
  have size : (q'.modifyTask j (Task.settle flag' result')).tasks.size
      = (q.modifyTask j (Task.settle flag result)).tasks.size := by
    rw [size_modifyTask, size_modifyTask, a.size]
  have others (k : TaskNumber) (other : k ≠ id) :
      (q'.modifyTask j (Task.settle flag' result')).task? k
        = (q.modifyTask j (Task.settle flag result)).task? k := by
    rw [task?_modifyTask, task?_modifyTask, a.others k other]
    split
    · next here =>
      obtain ⟨flags, results⟩ := same (here ▸ other)
      rw [flags, results]
    · rfl
  have ended : ∃ t t', (q.modifyTask j (Task.settle flag result)).task? id = some t ∧
      (q'.modifyTask j (Task.settle flag' result')).task? id = some t' ∧
      t'.priority = t.priority ∧ t.result.isSome = true ∧ t'.result.isSome = true := by
    obtain ⟨t, t', ht, ht', priority, hr, hr'⟩ := a.ended
    rw [task?_modifyTask, task?_modifyTask, ht, ht']
    split
    · exact ⟨_, _, rfl, rfl, priority, rfl, rfl⟩
    · exact ⟨t, t', rfl, rfl, priority, hr, hr'⟩
  rw [modifyTask_frame q, modifyTask_frame q']
  exact a.table size others ended

theorem abandon (a : q.Alike id q') (j : TaskNumber) :
    (q.abandon j).2.Alike id (q'.abandon j).2 := by
  have settled : (q.modifyTask j (Task.settle true (.error .cancelled))).Alike id
      (q'.modifyTask j (Task.settle true (.error .cancelled))) :=
    a.settle j fun _ => ⟨rfl, rfl⟩
  have total := a.total
  rw [abandon_eq, abandon_eq, a.isOpen]
  rw [modifyTask_frame q, modifyTask_frame q'] at settled ⊢
  exact { settled with
    total := by
      dsimp only
      omega }

theorem abandonAll (a : q.Alike id q') (ids : List TaskNumber) :
    (q.abandonAll ids).Alike id (q'.abandonAll ids) := by
  unfold Queue.abandonAll
  induction ids generalizing q q' with
  | nil => exact a
  | cons j ids ih => exact ih (a.abandon j)

/-- A task that enters the table is the same in both. -/
theorem enter (a : q.Alike id q') (t : Task α) :
    Alike id { q with tasks := q.tasks.push t } { q' with tasks := q'.tasks.push t } := by
  refine a.table ?_ ?_ ?_
  · rw [Array.size_push, Array.size_push, a.size]
  · intro j other
    rw [task?_push, task?_push, a.size, a.others j other]
  · obtain ⟨t₀, t₀', ht, ht', rest⟩ := a.ended
    have old : id ≠ q.tasks.size + 1 := Nat.ne_of_lt (Nat.lt_succ_of_le (le_size ht))
    refine ⟨t₀, t₀', ?_, ?_, rest⟩
    · rw [task?_push, if_neg old, ht]
    · rw [task?_push, a.size, if_neg old, ht']

/-! ### Steps -/

theorem submit (a : q.Alike id q') (priority : Priority) (choice : Nat) :
    (q.submit priority choice).2.Alike id (q'.submit priority choice).2 := by
  have entered := a.enter ⟨priority, false, none⟩
  have refuses : q'.refuses priority = q.refuses priority := by
    rw [Queue.refuses, Queue.refuses, a.stopped, a.background]
  cases refused : q.refuses priority with
  | true =>
    rw [submit_of_refused refused, submit_of_refused (refuses.trans refused), a.size]
    exact (entered.abandon _).publish
  | false =>
    rw [submit_of_taken refused, submit_of_taken (refuses.trans refused), a.size, a.pending]
    refine Alike.publish { entered with pending := rfl, workers := ?_ }
    show (Worker.wakeOne q'.workers choice).map _ = (Worker.wakeOne q.workers choice).map _
    rw [Worker.veil_wakeOne, Worker.veil_wakeOne, a.workers]

theorem awake (a : q.Alike id q') {worker : Nat} (idle : q.workers[worker]? ≠ some .awake) :
    q'.workers[worker]? ≠ some .awake := by
  rcases a.worker_cases worker with same | ⟨_, _, _, hw', _⟩
  · rw [same]
    exact idle
  · rw [hw']
    exact nofun

theorem look (a : q.Alike id q') (h : q.Accounted []) (h' : q'.Accounted []) (worker : Nat) :
    (q.look worker).Alike id (q'.look worker) := by
  unfold Queue.look
  by_cases hw : q.workers[worker]? = some .awake
  · have hw' : q'.workers[worker]? = some .awake := by
      rcases a.worker_cases worker with same | ⟨_, _, recording, _, _⟩
      · exact same.trans hw
      · rw [hw] at recording
        cases recording
    -- neither queue has a flagged task waiting, so both give out the first one
    rw [if_pos hw, if_pos hw', a.stopped, a.paused, h.dispatch_eq, h'.dispatch_eq, a.pending]
    split
    · exact a.setWorker worker rfl
    · split
      · exact a.setWorker worker rfl
      · cases q.pending.pop? with
        | none => exact a.setWorker worker rfl
        | some popped =>
          have running : popped.1.id :: q'.running = popped.1.id :: q.running := by rw [a.running]
          have given : Alike id
              { q with pending := popped.2, running := popped.1.id :: q.running }
              { q' with pending := popped.2, running := popped.1.id :: q'.running } :=
            { a with pending := rfl, running := running }
          exact (given.setWorker worker rfl).publish
  · rw [if_neg hw, if_neg (a.awake hw)]
    exact a

theorem finish (a : q.Alike id q') (worker : Nat) (e : WorkEnd α) :
    (q.finish worker e).Alike id (q'.finish worker e) := by
  by_cases executing : ∃ j, q.workers[worker]? = some (.executing j)
  · obtain ⟨j, hw⟩ := executing
    have hw' : q'.workers[worker]? = some (.executing j) := by
      rcases a.worker_cases worker with same | ⟨_, _, recording, _, _⟩
      · exact same.trans hw
      · rw [hw] at recording
        cases recording
    rw [finish_eq e hw, finish_eq e hw', a.isOpen]
    refine (a.settle j fun other => ⟨rfl, a.answer other e⟩).setWorker worker ?_
    refine Worker.veil_recording id j ?_ ?_
    · intro other
      rw [a.answer other e]
    · split <;> rfl
  · have executing' : ¬ ∃ j, q'.workers[worker]? = some (.executing j) := by
      rintro ⟨j, hw'⟩
      rcases a.worker_cases worker with same | ⟨_, _, _, recording, _⟩
      · exact executing ⟨j, same.symm.trans hw'⟩
      · rw [hw'] at recording
        cases recording
    rw [(finish_cases q worker e).resolve_left executing,
      (finish_cases q' worker e).resolve_left executing']
    exact a

/-- Recording counts one task in both or none, if under different counters. -/
theorem recorded (a : q.Alike id q') {worker : Nat} {j : TaskNumber}
    {ending ending' : Option Ending} (hw : q.workers[worker]? = some (.recording j ending))
    (hw' : q'.workers[worker]? = some (.recording j ending'))
    (some : ending'.isSome = ending.isSome) :
    (q.record worker).Alike id (q'.record worker) := by
  obtain ⟨completed, failed, cancelled, eq, counts⟩ := record_eq hw
  obtain ⟨completed', failed', cancelled', eq', counts'⟩ := record_eq hw'
  have total : completed' + failed' + cancelled' = completed + failed + cancelled := by
    have sum := a.total
    have one := counts .completed
    have two := counts .failed
    have three := counts .cancelled
    have one' := counts' .completed
    have two' := counts' .failed
    have three' := counts' .cancelled
    simp only [counter] at one two three one' two' three'
    rw [one, two, three, one', two', three']
    -- one counter rises in each queue, or none in either
    cases ending with
    | none =>
      cases ending' with
      | none => exact sum
      | some => cases some
    | some c =>
      cases ending' with
      | none => cases some
      | some c' => cases c <;> cases c' <;> simp <;> omega
  rw [eq, eq', a.running]
  exact Alike.publish { a.setWorker worker (w := .awake) rfl with running := rfl, total := total }

theorem record (a : q.Alike id q') (worker : Nat) :
    (q.record worker).Alike id (q'.record worker) := by
  rcases a.worker_cases worker with same | ⟨_, _, hw, hw', books⟩
  · by_cases recording : ∃ j ending, q.workers[worker]? = some (.recording j ending)
    · obtain ⟨j, ending, hw⟩ := recording
      exact a.recorded hw (same.trans hw) rfl
    · have recording' : ¬ ∃ j ending, q'.workers[worker]? = some (.recording j ending) := by
        rwa [same]
      rw [(record_cases q worker).resolve_left recording,
        (record_cases q' worker).resolve_left recording']
      exact a
  · exact a.recorded hw hw' books

theorem cancel (a : q.Alike id q') (j : TaskNumber) :
    (q.cancel j).2.Alike id (q'.cancel j).2 := by
  by_cases waits : j ∈ q.waiting
  · have waits' : j ∈ q'.waiting := by rwa [a.waiting]
    have taken : Alike id { q with pending := (q.pending.remove j).2 }
        { q' with pending := (q.pending.remove j).2 } :=
      { a with pending := rfl }
    rw [cancel_waiting waits, cancel_waiting waits', a.pending]
    exact (taken.abandon j).publish
  · have waits' : j ∉ q'.waiting := by rwa [a.waiting]
    have answer : (q'.abandon j).1 = (q.abandon j).1 := by rw [abandon_eq, abandon_eq, a.isOpen]
    rw [cancel_not_waiting waits, cancel_not_waiting waits', a.running, answer]
    split
    · dsimp only
      split
      · exact (a.abandon j).publish
      · exact a.abandon j
    · exact a

theorem dropBackground (a : q.Alike id q') : q.dropBackground.Alike id q'.dropBackground := by
  unfold Queue.dropBackground
  rw [a.pending]
  refine Alike.abandonAll ?_ _
  exact { a with background := rfl, pending := rfl }

theorem setBackground (a : q.Alike id q') (enabled : Bool) :
    (q.setBackground enabled).Alike id (q'.setBackground enabled) := by
  cases enabled with
  | true =>
    unfold Queue.setBackground
    rw [a.background]
    split
    · exact a
    · exact Alike.publish { a with background := rfl }
  | false =>
    cases on : q.backgroundEnabled with
    | false =>
      rw [setBackground_same on, setBackground_same (a.background.trans on)]
      exact a
    | true =>
      rw [setBackground_eq on, setBackground_eq (a.background.trans on), a.running,
        a.isBackground]
      exact (a.dropBackground.abandonAll _).publish

theorem pause (a : q.Alike id q') : q.pause.Alike id q'.pause := by
  unfold Queue.pause
  rw [a.paused]
  split
  · exact a
  · exact Alike.publish { a with paused := rfl }

theorem resume (a : q.Alike id q') : q.resume.Alike id q'.resume := by
  unfold Queue.resume
  rw [a.paused]
  split
  · have resumed : Alike id { q with paused := false } { q' with paused := false } :=
      { a with paused := rfl }
    exact resumed.publish.wakeAll
  · exact a

theorem stop (a : q.Alike id q') : q.stop.Alike id q'.stop := by
  cases on : q.stopped with
  | true =>
    rw [stop_again on, stop_again (a.stopped.trans on)]
    exact a
  | false =>
    have emptied : Alike id { q with stopped := true, pending := .empty }
        { q' with stopped := true, pending := .empty, running := q.running } :=
      { a with stopped := rfl, pending := rfl, running := rfl }
    rw [stop_eq on, stop_eq (a.stopped.trans on), a.waiting, a.running]
    exact ((emptied.abandonAll _).abandonAll _).publish.wakeAll

/-- **Queues that are alike take every step alike.** -/
theorem apply (a : q.Alike id q') (h : q.Accounted []) (h' : q'.Accounted [])
    (event : QueueEvent α) : (q.apply event).Alike id (q'.apply event) := by
  cases event with
  | submit priority choice => exact a.submit priority choice
  | look worker => exact a.look h h' worker
  | finish worker workEnd => exact a.finish worker workEnd
  | record worker => exact a.record worker
  | cancel j => exact a.cancel j
  | setBackground enabled => exact a.setBackground enabled
  | pause => exact a.pause
  | resume => exact a.resume
  | stop => exact a.stop

end Alike

end Queue

end ReadAhead
