import ReadAhead.Queue.State

/-!
  Queue events — everything that can happen to a render queue

  A queue changes in steps. Six of them are calls from outside: submit, cancel,
  switch background work on or off, pause, resume and stop. Three are steps of a
  worker: it looks at the queue, its work ends, it records the end. Any order
  of steps is a run (`Queue.apply` is total: a step that the worker is in no
  position to take changes nothing), and every step that changes the statistics
  publishes them, once.

  A submission takes its number and enters the queue in one step. In the program the number
  is taken just before the lock is, so of two submissions that overlap the later number may
  enter first. Here they enter in the order of their numbers, as if the number were taken
  under the lock; before a submission is over, nobody else knows its number.

  The rules that hold the steps together:
    * A task is resolved once. Whoever is first wins: the end of its work, or a
      cancellation. What comes later is neither kept nor counted.
    * A task submitted while the queue does not take its kind is resolved as
      cancelled at once.
    * Switching background work off cancels what waits and what runs of it.
    * Stopping cancels everything, and lets the workers go.

  Correspondence (operation ↔ definition):
    `submit`                           ↔ `Queue.submit`
    `next_task`                        ↔ `Queue.look`, `Queue.dispatch`
    `execute`, the work and its end    ↔ `Queue.finish`
    `execute`, under the lock          ↔ `Queue.record`
    `cancel`                           ↔ `Queue.cancel`
    `set_background_work_enabled`      ↔ `Queue.setBackground`
    `pause`, `resume`, `stop_and_join` ↔ `Queue.pause`, `Queue.resume`, `Queue.stop`
-/

namespace ReadAhead

/-- A step of a run. Workers are numbered from zero. -/
inductive QueueEvent (α : Type) where
  /-- A task is submitted; if a worker is to be woken for it, the choice falls
  on this one if it sleeps. -/
  | submit (priority : Priority) (choice : Nat)
  /-- A worker that is awake looks at the queue. -/
  | look (worker : Nat)
  /-- The work of the task that a worker executes ends. -/
  | finish (worker : Nat) (workEnd : WorkEnd α)
  /-- A worker records the end of its task. -/
  | record (worker : Nat)
  | cancel (id : TaskNumber)
  | setBackground (enabled : Bool)
  | pause
  | resume
  | stop

namespace Queue

variable {α : Type}

/-- Submits a task: its number, and the queue with it. It waits for a worker, or
is abandoned at once if the queue does not take work of its kind. -/
def submit (q : Queue α) (priority : Priority) (choice : Nat) : TaskNumber × Queue α :=
  let id := q.tasks.size + 1
  let q := { q with tasks := q.tasks.push ⟨priority, false, none⟩ }
  let q :=
    if q.stopped || (priority.isBackground && !q.backgroundEnabled) then (q.abandon id).2
    else
      { q with
        pending := q.pending.push ⟨id, priority⟩
        workers := Worker.wakeOne q.workers choice }
  (id, q.publish)

/-- Gives a worker the next task that waits, or lets it sleep if there is none.
A waiting task whose token is flagged is abandoned instead of being given out; a
round is spent on each. -/
def dispatch (worker : Nat) : Nat → Queue α → Queue α
  | 0, q => q.setWorker worker .asleep
  | rounds + 1, q =>
    match q.pending.pop? with
    | none => q.setWorker worker .asleep
    | some (ticket, rest) =>
      let q := { q with pending := rest }
      if q.isFlagged ticket.id then dispatch worker rounds (q.abandon ticket.id).2.publish
      else
        ({ q with running := ticket.id :: q.running }.setWorker worker
          (.executing ticket.id)).publish

/-- A worker that is awake looks at the queue: it goes if the queue was stopped,
sleeps if the queue is paused, and otherwise takes the next task. -/
def look (q : Queue α) (worker : Nat) : Queue α :=
  if q.workers[worker]? = some .awake then
    if q.stopped then q.setWorker worker .gone
    else if q.paused then q.setWorker worker .asleep
    else dispatch worker (q.pending.size + 1) q
  else q

/-- The work that a worker executes ends. The task ends with it, unless it has
ended before. -/
def finish (q : Queue α) (worker : Nat) (workEnd : WorkEnd α) : Queue α :=
  match q.workers[worker]? with
  | some (.executing id) =>
    let q := if workEnd.flagsToken then q.flag id else q
    let result := workEnd.toTaskAnswer (q.isFlagged id)
    let (fresh, q) := q.resolve id result
    -- an end that comes second is booked nowhere
    q.setWorker worker (.recording id (if fresh then some (.ofResult result) else none))
  | _ => q

def record (q : Queue α) (worker : Nat) : Queue α :=
  match q.workers[worker]? with
  | some (.recording id ending) =>
    let q := { q with running := q.running.erase id }
    let q := match ending with
      | none => q
      | some e => q.count e
    (q.setWorker worker .awake).publish
  | _ => q

/-- Cancels a task, and tells whether this ended it. A task that waits is taken
from the queue; one that runs keeps its worker until its work ends. -/
def cancel (q : Queue α) (id : TaskNumber) : Bool × Queue α :=
  match q.pending.remove id with
  | (some _, rest) => (true, ({ q with pending := rest }.abandon id).2.publish)
  | (none, _) =>
    if q.running.contains id then
      let (fresh, q) := q.abandon id
      (fresh, if fresh then q.publish else q)
    else (false, q)

/-- Switches background work on or off. Switching it off abandons all of it that
waits or runs. -/
def setBackground (q : Queue α) (enabled : Bool) : Queue α :=
  if q.backgroundEnabled = enabled then q
  else
    let q := { q with backgroundEnabled := enabled }
    let q :=
      if enabled then q
      else
        let (waiting, rest) := q.pending.drain (·.priority.isBackground)
        let q := { q with pending := rest }
        let q := q.abandonAll (waiting.map Ticket.id)
        -- what runs keeps its worker, but its result is settled
        q.abandonAll (q.running.filter q.isBackground)
    q.publish

def pause (q : Queue α) : Queue α :=
  if q.paused then q else { q with paused := true }.publish

def resume (q : Queue α) : Queue α :=
  if q.paused then { q with paused := false }.publish.wakeAll else q

/-- Ends the queue: abandons every task that waits or runs, and wakes the
workers so that they go. -/
def stop (q : Queue α) : Queue α :=
  if q.stopped then q
  else
    let (waiting, rest) := q.pending.drainAll
    let q := { q with stopped := true, pending := rest }
    ((q.abandonAll (waiting.map Ticket.id)).abandonAll q.running).publish.wakeAll

def apply (q : Queue α) : QueueEvent α → Queue α
  | .submit priority choice => (q.submit priority choice).2
  | .look worker => q.look worker
  | .finish worker workEnd => q.finish worker workEnd
  | .record worker => q.record worker
  | .cancel id => (q.cancel id).2
  | .setBackground enabled => q.setBackground enabled
  | .pause => q.pause
  | .resume => q.resume
  | .stop => q.stop

def run (q : Queue α) (events : List (QueueEvent α)) : Queue α := events.foldl apply q

end Queue

end ReadAhead
