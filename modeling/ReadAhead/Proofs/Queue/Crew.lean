import ReadAhead.Proofs.Queue.Isolation
import ReadAhead.Proofs.Queue.Waking
import ReadAhead.Queue.Crew

/-!
  Lost workers — what a queue comes to when letting go of a breakdown breaks down

  A crew takes steps of its queue and no others, so everything that is proved of
  reachable queues holds of the queue of a reachable crew. What is no longer true is
  that how the work of a task ends concerns nobody else: a worker that is lost keeps its
  task for good, and serves nobody.

  What is proved:
    1. `queue_run` — the queue of a crew has taken the steps that are its moves.
    2. `Kept.holds_run` — a lost worker has the task that it was lost with, and is
       about to record it for ever.
    3. `Kept.begins_nil` — where every worker is lost, no task begins any more.
    4. `Paired.run` — over any run, crews whose queues are alike have lost the same
       workers, and make the same moves.
    5. `work_end_isolated_iff` — two ways in which work can leave its worker differ in
       nothing that others can see exactly if both are quiet or both are fatal.
    6. `work_end_isolated_iff_crash` (anti-vacuity), and `work_end_not_isolated` — the
       next task begins beside a quiet breakdown, and never beside a fatal one.
-/

namespace ReadAhead.Crew

variable {α : Type} {c c' : Crew α} {id : TaskNumber}

/-! ## The queue of a crew -/

theorem queue_apply (c : Crew α) (event : CrewEvent α) :
    (c.apply event).queue = c.queue.run (c.move? event).toList := by
  unfold apply
  cases c.move? event with
  | none => rfl
  | some move => rfl

theorem apply_of_move {event : CrewEvent α} {move : QueueEvent α}
    (made : c.move? event = some move) :
    c.apply event = ⟨c.queue.apply move, event.losses ++ c.lost⟩ := by
  rw [apply, made]

theorem apply_of_none {event : CrewEvent α} (made : c.move? event = none) : c.apply event = c := by
  rw [apply, made]

theorem lost_apply (c : Crew α) (event : CrewEvent α) : c.lost ⊆ (c.apply event).lost := by
  unfold apply
  cases c.move? event with
  | none => exact List.Subset.refl _
  | some move => exact List.subset_append_right _ _

/-- **The queue of a crew takes steps of its own, and no others.** -/
theorem queue_run (c : Crew α) (events : List (CrewEvent α)) :
    (c.run events).queue = c.queue.run (c.moves events) := by
  unfold run
  induction events generalizing c with
  | nil => rfl
  | cons event events ih =>
    calc ((events.foldl apply (c.apply event)).queue)
      _ = (c.apply event).queue.run ((c.apply event).moves events) := ih _
      _ = (c.queue.run (c.move? event).toList).run ((c.apply event).moves events) := by
        rw [queue_apply]
      _ = c.queue.run ((c.move? event).toList ++ (c.apply event).moves events) :=
        (List.foldl_append ..).symm

theorem move_cases {event : CrewEvent α} {move : QueueEvent α} (made : c.move? event = some move) :
    (event = .step move ∧ ∀ worker ∈ c.lost, move.worker? ≠ some worker) ∨
    (∃ worker text flagsToken held, event = .lose worker text flagsToken ∧
      c.queue.workers[worker]? = some (.executing held) ∧
      move = .finish worker ⟨.crash text, flagsToken⟩) := by
  cases event with
  | step event =>
    refine .inl ?_
    rw [move?] at made
    split at made
    · cases made
    · next free =>
      cases made
      refine ⟨rfl, fun worker lost takes => free ?_⟩
      rw [takes, Option.any_some, List.contains_iff_mem]
      exact lost
  | lose worker text flagsToken =>
    refine .inr ⟨worker, text, flagsToken, ?_⟩
    rw [move?] at made
    split at made
    · next held hw =>
      cases made
      exact ⟨held, rfl, hw, rfl⟩
    · cases made

theorem record_of_moves {worker : Nat} {events : List (CrewEvent α)}
    (made : .record worker ∈ c.moves events) : .step (.record worker) ∈ events := by
  induction events generalizing c with
  | nil => exact absurd made List.not_mem_nil
  | cons event events ih =>
    rcases List.mem_append.mp made with now | later
    · rcases move_cases (Option.mem_toList.mp now) with ⟨rfl, _⟩ | ⟨_, _, _, _, _, _, other⟩
      · exact List.mem_cons_self
      · cases other
    · exact List.mem_cons_of_mem _ (ih later)

/-! ## Lost workers -/

theorem recording_finish {q : Queue α} {worker : Nat}
    (hw : q.workers[worker]? = some (.executing id)) (e : WorkEnd α) : ∃ ending,
      (q.finish worker e).workers[worker]? = some (.recording id ending) ∧
      (q.finish worker e).running = q.running := by
  obtain ⟨_, ending, _, _, finished⟩ := Queue.finish_frame hw e
  rw [finished]
  exact ⟨ending, List.getElem?_set_self (List.getElem?_eq_some_iff.mp hw).1, rfl⟩

/-- Each lost worker still is about to record the task that it was lost with. -/
structure Kept (c : Crew α) : Prop where
  accounted : c.queue.Accounted []
  holds : ∀ worker ∈ c.lost, ∃ held ending,
    c.queue.workers[worker]? = some (.recording held ending)

theorem start_kept (workers : Nat) (paused : Bool) : (start workers paused : Crew α).Kept :=
  ⟨Queue.start_accounted workers paused, fun _ lost => absurd lost List.not_mem_nil⟩

namespace Kept

theorem still (k : c.Kept) (event : CrewEvent α) {worker : Nat} (lost : worker ∈ c.lost)
    {held : TaskNumber} {ending : Option Ending}
    (hw : c.queue.workers[worker]? = some (.recording held ending)) :
    (c.apply event).queue.workers[worker]? = some (.recording held ending) := by
  rw [queue_apply]
  refine k.accounted.holding_run hw rfl nofun fun _ _ _ listed => ?_
  rcases move_cases (Option.mem_toList.mp listed) with ⟨_, free⟩ | ⟨_, _, _, _, _, _, other⟩
  · exact free worker lost rfl
  · cases other

theorem apply (k : c.Kept) (event : CrewEvent α) : (c.apply event).Kept := by
  have accounted : (c.apply event).queue.Accounted [] := by
    rw [queue_apply]
    exact (k.accounted.later_run _).1
  have before (worker : Nat) (lost : worker ∈ c.lost) : ∃ held ending,
      (c.apply event).queue.workers[worker]? = some (.recording held ending) := by
    obtain ⟨held, ending, hw⟩ := k.holds worker lost
    exact ⟨held, ending, k.still event lost hw⟩
  refine ⟨accounted, fun worker lost => ?_⟩
  cases made : c.move? event with
  | none => exact before worker (apply_of_none made ▸ lost)
  | some move =>
    rcases move_cases made with ⟨rfl, _⟩ | ⟨i, text, flagsToken, held, rfl, hw, rfl⟩
    · rw [apply_of_move made] at lost
      exact before worker lost
    · rw [apply_of_move made] at lost
      rcases List.mem_cons.mp lost with rfl | old
      · -- this is the worker that is lost now
        obtain ⟨ending, recording, _⟩ := recording_finish hw ⟨.crash text, flagsToken⟩
        refine ⟨held, ending, ?_⟩
        rw [queue_apply, made]
        exact recording
      · exact before worker old

theorem run (k : c.Kept) (events : List (CrewEvent α)) : (c.run events).Kept := by
  unfold Crew.run
  induction events generalizing c with
  | nil => exact k
  | cons event events ih => exact ih (k.apply event)

/-- **A lost worker keeps its task for good.** -/
theorem holds_run (k : c.Kept) {worker : Nat} (lost : worker ∈ c.lost) {held : TaskNumber}
    {ending : Option Ending} (hw : c.queue.workers[worker]? = some (.recording held ending))
    (events : List (CrewEvent α)) :
    (c.run events).queue.workers[worker]? = some (.recording held ending) ∧
    held ∈ (c.run events).queue.running := by
  have after : (c.run events).queue.workers[worker]? = some (.recording held ending) := by
    unfold Crew.run
    induction events generalizing c with
    | nil => exact hw
    | cons event events ih =>
      exact ih (k.apply event) (c.lost_apply event lost) (k.still event lost hw)
  have busy : .recording held ending ∈ Worker.busy (c.run events).queue.workers :=
    List.mem_filter.mpr ⟨List.mem_of_getElem? after, rfl⟩
  exact ⟨after, (k.run events).accounted.held.mem_iff.mpr (List.mem_filterMap.mpr ⟨_, busy, rfl⟩)⟩

theorem not_lost (k : c.Kept) {worker : Nat}
    (hw : c.queue.workers[worker]? = some (.executing id)) : worker ∉ c.lost := by
  intro lost
  obtain ⟨_, _, recording⟩ := k.holds worker lost
  rw [hw] at recording
  cases recording

end Kept

def begins (c : Crew α) (events : List (CrewEvent α)) : List TaskNumber :=
  c.queue.begins (c.moves events)

theorem begins_cons (c : Crew α) (event : CrewEvent α) (events : List (CrewEvent α)) :
    c.begins (event :: events)
      = c.queue.begins (c.move? event).toList ++ (c.apply event).begins events := by
  rw [begins, moves, begins, queue_apply]
  cases c.move? event with
  | none => rfl
  | some move =>
    show c.queue.begun move ++ _ = (c.queue.begun move ++ []) ++ _
    rw [List.append_nil]
    rfl

/-- **Where every worker is lost, no task begins any more.** -/
theorem Kept.begins_nil (k : c.Kept) (all : ∀ worker < c.queue.workers.length, worker ∈ c.lost)
    (events : List (CrewEvent α)) : c.begins events = [] := by
  induction events generalizing c with
  | nil => rfl
  | cons event events ih =>
    have workers : (c.apply event).queue.workers.length = c.queue.workers.length := by
      cases made : c.move? event with
      | none => rw [apply_of_none made]
      | some move =>
        rw [apply_of_move made]
        exact k.accounted.length_apply move
    have later : (c.apply event).begins events = [] := by
      refine ih (k.apply event) fun worker inside => c.lost_apply event ?_
      exact all worker (workers ▸ inside)
    rw [begins_cons, later, List.append_nil]
    cases c.move? event with
    | none => rfl
    | some move =>
      -- only a worker that is awake begins a task, and none of these is
      rcases k.accounted.begun_cases move with nothing | ⟨worker, _, _, _, hw, _⟩
      · rw [Option.toList_some, Queue.begins, nothing]
        rfl
      · obtain ⟨_, _, recording⟩ := k.holds worker (all worker (List.getElem?_eq_some_iff.mp hw).1)
        rw [hw] at recording
        cases recording

/-! ## Crews that are alike -/

/-- Crews whose queues are alike, and which have lost the same workers. -/
structure Paired (id : TaskNumber) (c c' : Crew α) : Prop where
  queues : c.queue.Paired id c'.queue
  lost : c'.lost = c.lost

namespace Paired

theorem move? (p : c.Paired id c') (event : CrewEvent α) : c'.move? event = c.move? event := by
  cases event with
  | step event => rw [Crew.move?, Crew.move?, p.lost]
  | lose worker text flagsToken =>
    rw [Crew.move?, Crew.move?]
    rcases p.queues.alike.worker_cases worker with same | ⟨_, _, hw, hw', _⟩
    · rw [same]
    · rw [hw, hw']

theorem apply (p : c.Paired id c') (event : CrewEvent α) :
    (c.apply event).Paired id (c'.apply event) where
  queues := by
    rw [queue_apply, queue_apply, p.move?]
    exact p.queues.run _
  lost := by
    rw [Crew.apply, Crew.apply, p.move?]
    cases c.move? event with
    | none => exact p.lost
    | some move => exact congrArg (event.losses ++ ·) p.lost

/-- **Crews that are alike make the same moves.** -/
theorem moves (p : c.Paired id c') (events : List (CrewEvent α)) :
    c'.moves events = c.moves events := by
  induction events generalizing c c' with
  | nil => rfl
  | cons event events ih => rw [Crew.moves, Crew.moves, p.move?, ih (p.apply event)]

theorem run (p : c.Paired id c') (events : List (CrewEvent α)) :
    (c.run events).Paired id (c'.run events) := by
  unfold Crew.run
  induction events generalizing c c' with
  | nil => exact p
  | cons event events ih => exact ih (p.apply event)

end Paired

/-! ## How work leaves its worker -/

/-- In a reachable crew, work that leaves its worker ends in the queue, and the worker is
lost if it is left for good. -/
theorem Kept.leave (k : c.Kept) {worker : Nat}
    (hw : c.queue.workers[worker]? = some (.executing id)) (l : Leaving α) :
    c.move? (l.event worker) = some (.finish worker l.workEnd) ∧
    c.apply (l.event worker)
      = ⟨c.queue.finish worker l.workEnd, if l.isFatal then worker :: c.lost else c.lost⟩ := by
  cases l with
  | quiet workEnd =>
    have moved : c.move? (.step (.finish worker workEnd)) = some (.finish worker workEnd) := by
      rw [move?, if_neg]
      rw [QueueEvent.worker?, Option.any_some, List.contains_iff_mem]
      exact k.not_lost hw
    exact ⟨moved, apply_of_move moved⟩
  | fatal text flagsToken =>
    have moved : c.move? (.lose worker text flagsToken)
        = some (.finish worker ⟨.crash text, flagsToken⟩) := by rw [move?, hw]
    exact ⟨moved, apply_of_move moved⟩

theorem Kept.queue_left (k : c.Kept) {worker : Nat}
    (hw : c.queue.workers[worker]? = some (.executing id)) (l : Leaving α)
    (after : List (CrewEvent α)) :
    (c.run (l.event worker :: after)).queue = c.queue.run
      (.finish worker l.workEnd :: (c.apply (l.event worker)).moves after) := by
  rw [queue_run, moves, (k.leave hw l).1]
  rfl

/-- Crews are alike in which the same work left its worker in two ways, both quiet or
both fatal. -/
theorem paired_leave (k : c.Kept) (reported : c.queue.Reported) {worker : Nat}
    (hw : c.queue.workers[worker]? = some (.executing id))
    (known : ∃ t, c.queue.task? id = some t) {l l' : Leaving α} (same : l'.isFatal = l.isFatal) :
    (c.apply (l.event worker)).Paired id (c.apply (l'.event worker)) := by
  rw [(k.leave hw l).2, (k.leave hw l').2, same]
  exact ⟨Queue.paired_finish k.accounted reported hw known l.workEnd l'.workEnd, rfl⟩

/-- **The task of a worker that was lost counts as active for good.** -/
theorem Kept.running_lost (k : c.Kept) {worker : Nat}
    (hw : c.queue.workers[worker]? = some (.executing id)) {l : Leaving α}
    (fatal : l.isFatal = true) (after : List (CrewEvent α)) :
    id ∈ (c.run (l.event worker :: after)).queue.running := by
  obtain ⟨ending, recording, _⟩ := recording_finish hw l.workEnd
  have left := (k.leave hw l).2
  rw [if_pos fatal] at left
  have lost : worker ∈ (c.apply (l.event worker)).lost := by
    rw [left]
    exact List.mem_cons_self
  have recording : (c.apply (l.event worker)).queue.workers[worker]?
      = some (.recording id ending) := by
    rw [left]
    exact recording
  exact ((k.apply _).holds_run lost recording after).2

theorem Kept.running_rid (k : c.Kept) {worker : Nat}
    (hw : c.queue.workers[worker]? = some (.executing id)) {l : Leaving α}
    (quiet : l.isFatal = false) :
    id ∉ (c.run [l.event worker, .step (.record worker)]).queue.running := by
  obtain ⟨ending, recording, same⟩ := recording_finish hw l.workEnd
  have left := (k.leave hw l).2
  rw [if_neg (Bool.eq_false_iff.mp quiet)] at left
  have records : (c.apply (l.event worker)).move? (.step (.record worker))
      = some (.record worker) := by
    rw [left, move?, if_neg]
    rw [QueueEvent.worker?, Option.any_some, List.contains_iff_mem]
    exact k.not_lost hw
  obtain ⟨_, _, _, recorded, _⟩ := Queue.record_eq recording
  have running : (c.run [l.event worker, .step (.record worker)]).queue.running
      = c.queue.running.erase id := by
    show ((c.apply (l.event worker)).apply _).queue.running = _
    rw [apply_of_move records, left]
    show ((c.queue.finish worker l.workEnd).record worker).running = _
    rw [recorded, ← same]
    rfl
  rw [running]
  exact (List.nodup_append.mp k.accounted.distinct).2.1.not_mem_erase

theorem Kept.running_recorded (k : c.Kept) {worker : Nat}
    (hw : c.queue.workers[worker]? = some (.executing id)) (l : Leaving α) :
    id ∈ (c.run [l.event worker, .step (.record worker)]).queue.running ↔ l.isFatal = true := by
  cases fatal : l.isFatal with
  | true => exact iff_of_true (k.running_lost hw fatal _) rfl
  | false => exact iff_of_false (k.running_rid hw fatal) Bool.false_ne_true

/-- **How the work of a task leaves its worker concerns this task only, as long as the
worker is not lost.** In whatever reachable state a worker executes it: let its work
leave the worker in one way or in another, and let the same steps follow. After every
step the crews agree on all that is not about the task, and the same tasks begin in the
same order, exactly if both ways are quiet or both are fatal. The task has ended as its
work came to, or as it had before. If the way is fatal, it counts as active for good. If
it was cancelled before, then what the work comes to is discarded: two ways that are
both quiet or both fatal lead to equal crews, the result stays, and nothing is counted
when the worker records the end. -/
theorem work_end_isolated_iff (workers : Nat) (paused : Bool) (before : List (CrewEvent α))
    (worker : Nat) (id : TaskNumber)
    (runs : ((start workers paused).run before).queue.workers[worker]? = some (.executing id))
    (l l' : Leaving α) :
    let c : Crew α := (start workers paused).run before
    let ended (l : Leaving α) (after : List (CrewEvent α)) := c.run (l.event worker :: after)
    ((∀ after, (ended l after).queue.AgreeBeside id (ended l' after).queue ∧
        c.begins (l'.event worker :: after) = c.begins (l.event worker :: after))
      ↔ l'.isFatal = l.isFatal) ∧
    (∀ after, (ended l after).queue.result? id
      = some ((c.queue.result? id).getD (c.queue.answer id l.workEnd))) ∧
    (l.isFatal = true → ∀ after, id ∈ (ended l after).queue.running) ∧
    (c.queue.result? id = some (.error .cancelled) → ∀ after,
      (l'.isFatal = l.isFatal → ended l' after = ended l after) ∧
      (ended l after).queue.result? id = some (.error .cancelled) ∧
      (.step (.record worker) ∉ after → ∀ e,
        ((ended l after).apply (.step (.record worker))).queue.counter e
          = (ended l after).queue.counter e)) := by
  intro c ended
  have k : c.Kept := (start_kept workers paused).run before
  have reached : c.queue = (Queue.start workers paused).run ((start workers paused).moves before) :=
    queue_run _ before
  have executes : ((Queue.start workers paused).run
      ((start workers paused).moves before)).workers[worker]? = some (.executing id) :=
    reached ▸ runs
  have reported : c.queue.Reported := reached ▸ Queue.run_reported workers paused _
  have known : ∃ t, c.queue.task? id = some t := by
    rw [reached]
    exact Queue.run_known workers paused _ id (reached ▸ k.accounted.running_of_executing runs)
  -- the queues of both crews make the same moves, so they are runs that are compared already
  have isolated (e e' : WorkEnd α) := Queue.work_end_isolated workers paused
    ((start workers paused).moves before) worker id executes e e'
  rw [← reached] at isolated
  refine ⟨⟨?_, ?_⟩, ?_, fun fatal => k.running_lost runs fatal, ?_⟩
  · intro agree
    -- give the worker time to record the end, and see whether it has its task still
    have running := (agree [.step (.record worker)]).1.running
    have recorded : id ∈ (ended l [.step (.record worker)]).queue.running ↔ l.isFatal = true :=
      k.running_recorded runs l
    rw [← running] at recorded
    exact Bool.eq_iff_iff.mpr ((k.running_recorded runs l').symm.trans recorded)
  · intro same after
    have paired := paired_leave k reported runs known same
    refine ⟨(paired.run after).queues.agreeBeside, ?_⟩
    rw [begins, begins, moves, moves, (k.leave runs l).1, (k.leave runs l').1, paired.moves after]
    exact ((isolated l.workEnd l'.workEnd).1 _).1
  · intro after
    show (c.run _).queue.result? id = _
    rw [k.queue_left runs l after]
    exact ((isolated l.workEnd l.workEnd).1 _).2.2.1
  · intro cancelled after
    obtain ⟨_, discarded⟩ := (isolated l.workEnd l'.workEnd).2 cancelled
    obtain ⟨_, kept, uncounted⟩ := discarded ((c.apply (l.event worker)).moves after)
    rw [← k.queue_left runs l after] at kept uncounted
    refine ⟨?_, kept, ?_⟩
    · intro same
      have paired := paired_leave k reported runs known same
      refine Crew.ext ?_ (paired.run after).lost
      show (c.run _).queue = (c.run _).queue
      rw [k.queue_left runs l after, k.queue_left runs l' after, paired.moves after]
      exact (discarded _).1
    · intro waits e
      cases made : (ended l after).move? (.step (.record worker)) with
      | none => rw [apply_of_none made]
      | some move =>
        rcases move_cases made with ⟨records, _⟩ | ⟨_, _, _, _, other, _⟩
        · cases records
          rw [apply_of_move made]
          exact uncounted (mt record_of_moves waits) e
        · cases other

/-- The first of two tasks begins, and the second one waits for the only worker. -/
def twoWait : List (CrewEvent Nat) :=
  [.step (.submit .visible 0), .step (.look 0), .step (.submit .visible 0)]

/-- **Not vacuous**: work that breaks down and is let go of, beside work that flags its
token and comes to a value. The next task begins in both runs, and the ends are counted
differently, unless the task was cancelled before. -/
theorem work_end_isolated_iff_crash :
    let c := (start 1 false).run twoWait
    let late := (start 1 false).run (twoWait ++ [.step (.cancel 1)])
    let crash : Leaving Nat := .quiet ⟨.crash none, false⟩
    let value : Leaving Nat := .quiet ⟨.value 7, true⟩
    let after : List (CrewEvent Nat) := [.step (.record 0), .step (.look 0)]
    c.begins (value.event 0 :: after) = c.begins (crash.event 0 :: after) ∧
    c.begins (crash.event 0 :: after) = [2] ∧
    (c.run (crash.event 0 :: after)).queue.AgreeBeside 1 (c.run (value.event 0 :: after)).queue ∧
    (c.run (crash.event 0 :: after)).queue.failed = 1 ∧
    (c.run (value.event 0 :: after)).queue.failed = 0 ∧
    late.run (value.event 0 :: after) = late.run (crash.event 0 :: after) := by
  intro c late crash value after
  obtain ⟨isolated, _⟩ := work_end_isolated_iff 1 false twoWait 0 1 (by decide +kernel) crash value
  obtain ⟨_, _, _, discarded⟩ := work_end_isolated_iff 1 false (twoWait ++ [.step (.cancel 1)]) 0 1
    (by decide +kernel) crash value
  have cancelled : late.queue.result? 1 = some (.error .cancelled) := by decide +kernel
  obtain ⟨agree, begins⟩ := isolated.mpr rfl after
  exact ⟨begins, by decide +kernel, agree, by decide +kernel, by decide +kernel,
    (discarded cancelled after).1 rfl⟩

/-- **A breakdown that breaks down again takes the worker with it.** Of two tasks, the
work of the first one breaks down without a text. If what it left is let go of, the
second task begins, ends and leaves nothing active; otherwise it never begins, the first
one stays active, and its failure is not counted. To the one who waits for the first
task both are the same. -/
theorem work_end_not_isolated :
    let c := (start 1 false).run twoWait
    let quiet : Leaving Nat := .quiet ⟨.crash none, false⟩
    let fatal : Leaving Nat := .fatal none false
    let after : List (CrewEvent Nat) :=
      [.step (.record 0), .step (.look 0), .step (.finish 0 ⟨.value 7, false⟩), .step (.record 0)]
    let served := (c.run (quiet.event 0 :: after)).queue
    let starved := (c.run (fatal.event 0 :: after)).queue
    served.result? 1 = some (.error (.crashed none)) ∧
    starved.result? 1 = some (.error (.crashed none)) ∧
    c.begins (quiet.event 0 :: after) = [2] ∧ c.begins (fatal.event 0 :: after) = [] ∧
    served.result? 2 = some (.ok 7) ∧ starved.result? 2 = none ∧
    served.statistics.active = 0 ∧ starved.statistics.active = 1 ∧
    served.failed = 1 ∧ starved.failed = 0 ∧
    ¬ served.AgreeBeside 1 starved := by
  intro c quiet fatal after served starved
  have idle : served.running = [] := by decide +kernel
  have busy : starved.running = [1] := by decide +kernel
  refine ⟨by decide +kernel, by decide +kernel, by decide +kernel, by decide +kernel,
    by decide +kernel, by decide +kernel, by decide +kernel, by decide +kernel,
    by decide +kernel, by decide +kernel, fun agree => ?_⟩
  have same := agree.running
  rw [idle, busy] at same
  cases same

end ReadAhead.Crew
