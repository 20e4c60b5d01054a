import ReadAhead.Proofs.Queue.Aftermath
import ReadAhead.Proofs.Queue.Report
import ReadAhead.Proofs.Watching

/-!
  Notices — what watchers of a queue see, and when they are told

  What is published is at no time behind: the statistics change under a lock, and
  before it is given back they are published. Many branches of a step publish nothing,
  but none of those has changed anything that is reported.

  A queue that its owner has dropped is a queue that was stopped and whose workers are
  gone. Nobody is left who could change it, except for those who kept the receipt of a
  task, and they find nothing to cancel.

  What is proved:
    1. `Accounted.tells_apply` — a step tells once of statistics that differ from
       those before it, and otherwise not at all.
    2. `Ended.still` — a queue that was dropped stays as it is.
    3. `statistics_published` — in every reachable state, what is published are the
       statistics, and a watcher has something new exactly if a step since it looked
       has changed them; once the queue was dropped, they are the last.
    4. `statistics_published_dropped` (anti-vacuity) — the watcher of a queue that is
       used and dropped.
-/

namespace ReadAhead

/-- Whether a step is a call on the queue itself. The others are steps of a worker, or
made with the receipt of a task. -/
def QueueEvent.needsQueue {α : Type} : QueueEvent α → Bool
  | .submit .. | .setBackground _ | .pause | .resume | .stop => true
  | .look _ | .finish .. | .record _ | .cancel _ => false

namespace Queue

variable {α : Type} {q : Queue α}

/-- **A step tells of other statistics, once.** -/
theorem Accounted.tells_apply (h : q.Accounted []) (r : q.Reported) (event : QueueEvent α) :
    q.published.Tells (q.apply event).published := by
  rw [h.published_apply r]
  exact Stream.tells_publish BEq.rfl _

theorem Accounted.version_apply (h : q.Accounted []) (r : q.Reported) (event : QueueEvent α) :
    (q.apply event).published.version
      = q.published.version + if (q.apply event).statistics = q.statistics then 0 else 1 := by
  have now : q.published.value = q.statistics := r
  have after : (q.apply event).published.value = (q.apply event).statistics :=
    h.reported_apply r event
  rw [h.tells_apply r event, now, after]
  refine congrArg (_ + ·) (if_congr ?_ rfl rfl)
  exact beq_iff_eq.trans eq_comm

theorem Accounted.hasChanged_run (h : q.Accounted []) (r : q.Reported)
    (later : List (QueueEvent α)) :
    (q.run later).published.hasChanged q.published.subscribe = true ↔
      ∃ before event after, later = before ++ event :: after ∧
        ((q.run before).apply event).statistics ≠ (q.run before).statistics := by
  have kept (q : Queue α) (event : QueueEvent α) (holds : q.Accounted [] ∧ q.Reported) :
      (q.apply event).Accounted [] ∧ (q.apply event).Reported :=
    ⟨apply_accounted holds.1 event, holds.1.reported_apply holds.2 event⟩
  have tells (q : Queue α) (event : QueueEvent α) (holds : q.Accounted [] ∧ q.Reported) :
      (published q).Tells (published (q.apply event)) := holds.1.tells_apply holds.2 event
  have news : (q.run later).published.hasChanged q.published.subscribe = true ↔
      Stream.ChangedBy apply published q later :=
    Stream.hasChanged_run kept tells later ⟨h, r⟩
  refine news.trans ?_
  have differs (before : List (QueueEvent α)) (event : QueueEvent α) :
      ((q.run before).published.value == ((q.run before).apply event).published.value) = false ↔
        ((q.run before).apply event).statistics ≠ (q.run before).statistics := by
    obtain ⟨h', r'⟩ := h.run_induction (fun _ h => h.reported_apply) r before
    have now : (q.run before).published.value = (q.run before).statistics := r'
    have after : ((q.run before).apply event).published.value
        = ((q.run before).apply event).statistics := h'.reported_apply r' event
    rw [now, after, beq_eq_false_iff_ne]
    exact ne_comm
  exact exists_congr fun before => exists_congr fun event => exists_congr fun _ =>
    and_congr_right fun _ => differs before event

/-! ## Dropped queues -/

theorem Accounted.running_nil (h : q.Accounted []) (gone : ∀ w ∈ q.workers, w = .gone) :
    q.running = [] := by
  have none_busy : Worker.busy q.workers = [] := by
    refine List.filter_eq_nil_iff.mpr fun w hw => ?_
    rw [gone w hw]
    exact Bool.false_ne_true
  have held := h.held
  rw [none_busy] at held
  exact held.eq_nil

/-- **A queue that was dropped stays as it is.** -/
theorem Ended.still (e : q.Ended) (h : q.Accounted []) (gone : ∀ w ∈ q.workers, w = .gone)
    {event : QueueEvent α} (outside : event.needsQueue = false) : q.apply event = q := by
  have idle {worker : Nat} {w : Worker} (hw : q.workers[worker]? = some w) : w = .gone :=
    gone w (List.mem_of_getElem? hw)
  cases event with
  | look worker =>
    refine if_neg fun hw => ?_
    cases idle hw
  | finish worker workEnd =>
    rcases finish_cases q worker workEnd with ⟨id, hw⟩ | same
    · cases idle hw
    · exact same
  | record worker =>
    rcases record_cases q worker with ⟨id, ending, hw⟩ | same
    · cases idle hw
    · exact same
  | cancel id =>
    have waits : id ∉ q.waiting := by
      rw [waiting, h.pending_empty e.closed]
      exact List.not_mem_nil
    show (q.cancel id).2 = q
    rw [cancel_not_waiting waits, h.running_nil gone]
    rfl
  | submit | setBackground | pause | resume | stop => cases outside

theorem Ended.still_run (e : q.Ended) (h : q.Accounted []) (gone : ∀ w ∈ q.workers, w = .gone)
    {later : List (QueueEvent α)} (outside : ∀ event ∈ later, event.needsQueue = false) :
    q.run later = q := by
  induction later with
  | nil => rfl
  | cons event later ih =>
    obtain ⟨first, rest⟩ := List.forall_mem_cons.mp outside
    show (q.apply event).run later = q
    rw [e.still h gone first]
    exact ih rest

theorem Ended.inFlight_eq (e : q.Ended) (h : q.Accounted []) (gone : ∀ w ∈ q.workers, w = .gone) :
    q.statistics.inFlight = 0 := by
  show q.pending.size + q.running.length = 0
  rw [h.pending_empty e.closed, h.running_nil gone]
  rfl

/-! ## Every run -/

/-- **What is published are the statistics.** In every reachable state, the stream
holds them, and a watcher who comes then has nothing new to look at. A step makes one
new version if it changes the statistics, and none otherwise, so a watcher has
something new after any further steps exactly if one of them has changed them. When a
queue was stopped and its workers are gone, then without a further call on it the
stream stays as it is, with the statistics of a queue in which nothing is in flight. -/
theorem statistics_published (workers : Nat) (paused : Bool) (events : List (QueueEvent α)) :
    let q : Queue α := (start workers paused).run events
    q.published.value = q.statistics ∧
    q.published.hasChanged q.published.subscribe = false ∧
    (∀ event, (q.apply event).published.version
      = q.published.version + if (q.apply event).statistics = q.statistics then 0 else 1) ∧
    (∀ later, (q.run later).published.hasChanged q.published.subscribe = true ↔
      ∃ before event after, later = before ++ event :: after ∧
        ((q.run before).apply event).statistics ≠ (q.run before).statistics) ∧
    (q.stopped = true → (∀ w ∈ q.workers, w = .gone) →
      q.statistics.inFlight = 0 ∧
      ∀ later, (∀ event ∈ later, event.needsQueue = false) →
        (q.run later).published = q.published ∧ (q.run later).published.value = q.statistics) := by
  intro q
  have h : q.Accounted [] := run_accounted workers paused events
  have r : q.Reported := run_reported workers paused events
  refine ⟨r, Stream.hasChanged_subscribe _, h.version_apply r, h.hasChanged_run r, ?_⟩
  intro off gone
  have e : q.Ended := run_ended workers paused events off
  refine ⟨e.inFlight_eq h gone, fun later outside => ?_⟩
  rw [e.still_run h gone outside]
  exact ⟨rfl, r⟩

/-- A task is rendered and another one waits while the queue is dropped. -/
def dropped : List (QueueEvent Nat) :=
  [.submit .visible 0, .look 0, .finish 0 ⟨.value 7, false⟩, .record 0, .pause,
    .submit .thumbnail 0, .stop, .look 0]

/-- **Not vacuous**: after it was dropped, whoever watches the queue still reads how
the two tasks ended; he was told six times, and neither by the end of the work nor by
the worker that left. -/
theorem statistics_published_dropped :
    let q := (start 1 false).run dropped
    q.published.value
      = { submitted := 2, completed := 1, failed := 0, cancelled := 1, queued := 0, active := 0,
          backgroundEnabled := true, paused := true } ∧
    q.published.version = 6 ∧
    q.published.hasChanged ((start 1 false : Queue Nat).published.subscribe) = true ∧
    (q.run [.cancel 2, .look 0]).published = q.published := by
  intro q
  obtain ⟨read, _, _, _, last⟩ := statistics_published 1 false dropped
  obtain ⟨_, _, _, news, _⟩ := statistics_published 1 false ([] : List (QueueEvent Nat))
  refine ⟨?_, by decide +kernel, ?_, ?_⟩
  · rw [read]
    decide +kernel
  · exact (news dropped).mpr ⟨[], .submit .visible 0, dropped.tail, rfl, by decide +kernel⟩
  · exact ((last (by decide +kernel) (by decide +kernel)).2 _ (by decide)).1

end Queue

end ReadAhead
