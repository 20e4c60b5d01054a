import ReadAhead.Queue.Options
import ReadAhead.Queue.Outcome
import ReadAhead.Queue.Pending
import ReadAhead.Stream

/-!
  Queue state — tasks, workers and switches

  Every task ever submitted stays in a table, with its token's flag and its
  result. The table says what became of a task; `pending` and `running` say where
  it is: waiting for a worker, or held by one until the end of its work has been
  recorded. A task that is resolved from outside while it runs is therefore
  still running, and its result stands.

  A worker is awake (about to look at the queue), asleep until it is woken,
  executing a task, about to record how its task ended, or gone. Waking one
  worker wakes one that sleeps, if any does; which one is left open, so the
  choice is an argument.

  Task numbers and counters are natural numbers, where the program has 64-bit words. A task
  is counted once when it is submitted and once when it has ended, so only 2 ^ 64
  submissions could tell them apart.

  The functions here change one thing each. They are put together in
  `Queue/Event`, one function for everything that happens to the queue.

  Correspondence (operation ↔ definition):
    `QueueState`, `Shared`                    ↔ `Queue`
    `running`                                 ↔ `Queue.running`, with workers that hold the task
    `Completion::resolve`                     ↔ `Queue.resolve`
    `cancel_queued`, `cancel_running`         ↔ `Queue.abandon`
    `record`                                  ↔ `Queue.count`
    `stats`, `publish`                        ↔ `Queue.statistics`, `Queue.publish`
    `work_available.notify_one`, `notify_all` ↔ `Worker.wakeOne`, `Queue.wakeAll`
-/

namespace ReadAhead

structure Task (α : Type) where
  priority : Priority
  /-- Whether its token is flagged as cancelled. -/
  flagged : Bool
  /-- How it ended, once it has. -/
  result : Option (TaskAnswer α)

inductive Worker where
  /-- About to look at the queue. -/
  | awake
  /-- Asleep until woken. -/
  | asleep
  | executing (id : TaskNumber)
  /-- Done with a task, and about to record it under this counter, if the task
  had not ended before. -/
  | recording (id : TaskNumber) (ending : Option Ending)
  /-- Gone, as the queue was stopped. -/
  | gone
  deriving DecidableEq, Repr

namespace Worker

def woken : Worker → Worker
  | asleep => awake
  | w => w

/-- Wakes the worker with the given number if it sleeps, and otherwise the first
one that does. -/
def wakeOne (ws : List Worker) (choice : Nat) : List Worker :=
  if ws[choice]? = some asleep then ws.set choice awake
  else
    match ws.findIdx? (· == asleep) with
    | none => ws
    | some w => ws.set w awake

end Worker

structure QueueStatistics where
  submitted : Nat
  completed : Nat
  failed : Nat
  cancelled : Nat
  queued : Nat
  active : Nat
  backgroundEnabled : Bool
  paused : Bool
  deriving DecidableEq, Repr

/-- How many tasks wait or are with a worker. -/
def QueueStatistics.inFlight (s : QueueStatistics) : Nat := s.queued + s.active

/-- A render queue whose tasks have values in `α`. -/
structure Queue (α : Type) where
  /-- All tasks, in the order of submission: task `n` is the `n`-th. -/
  tasks : Array (Task α)
  pending : Pending
  /-- The tasks that are with a worker. -/
  running : List TaskNumber
  workers : List Worker
  /-- Whether work that is not for the screen is accepted. -/
  backgroundEnabled : Bool
  paused : Bool
  stopped : Bool
  completed : Nat
  failed : Nat
  cancelled : Nat
  /-- The statistics as last published. -/
  published : Stream QueueStatistics

namespace Queue

variable {α : Type}

def task? (q : Queue α) (id : TaskNumber) : Option (Task α) :=
  if id = 0 then none else q.tasks[id - 1]?

def result? (q : Queue α) (id : TaskNumber) : Option (TaskAnswer α) := (q.task? id).bind (·.result)

def isFlagged (q : Queue α) (id : TaskNumber) : Bool := (q.task? id).any (·.flagged)

def isBackground (q : Queue α) (id : TaskNumber) : Bool :=
  (q.task? id).any (·.priority.isBackground)

def statistics (q : Queue α) : QueueStatistics where
  submitted := q.tasks.size
  completed := q.completed
  failed := q.failed
  cancelled := q.cancelled
  queued := q.pending.size
  active := q.running.length
  backgroundEnabled := q.backgroundEnabled
  paused := q.paused

def publish (q : Queue α) : Queue α := { q with published := q.published.publish q.statistics }

def modifyTask (q : Queue α) (id : TaskNumber) (f : Task α → Task α) : Queue α :=
  if id = 0 then q else { q with tasks := q.tasks.modify (id - 1) f }

def flag (q : Queue α) (id : TaskNumber) : Queue α := q.modifyTask id ({ · with flagged := true })

/-- Ends a task with a result, and tells whether it had not ended before. A task
that has ended keeps its result. -/
def resolve (q : Queue α) (id : TaskNumber) (result : TaskAnswer α) : Bool × Queue α :=
  match q.task? id with
  | none => (false, q)
  | some task =>
    if task.result.isSome then (false, q)
    else (true, q.modifyTask id ({ · with result := some result }))

def count (q : Queue α) : Ending → Queue α
  | .completed => { q with completed := q.completed + 1 }
  | .failed => { q with failed := q.failed + 1 }
  | .cancelled => { q with cancelled := q.cancelled + 1 }

/-- Flags a task and ends it as cancelled; tells whether it had not ended
before, and counts it if so. -/
def abandon (q : Queue α) (id : TaskNumber) : Bool × Queue α :=
  let (fresh, q) := (q.flag id).resolve id (.error .cancelled)
  (fresh, if fresh then q.count .cancelled else q)

def abandonAll (q : Queue α) (ids : List TaskNumber) : Queue α :=
  ids.foldl (fun q id => (q.abandon id).2) q

def setWorker (q : Queue α) (worker : Nat) (w : Worker) : Queue α :=
  { q with workers := q.workers.set worker w }

def wakeAll (q : Queue α) : Queue α := { q with workers := q.workers.map Worker.woken }

/-- A queue without tasks whose workers are about to look at it. -/
def start (workers : Nat) (paused : Bool) : Queue α where
  tasks := #[]
  pending := .empty
  running := []
  workers := List.replicate workers .awake
  backgroundEnabled := true
  paused := paused
  stopped := false
  completed := 0
  failed := 0
  cancelled := 0
  published := .ofValue
    { submitted := 0, completed := 0, failed := 0, cancelled := 0, queued := 0, active := 0,
      backgroundEnabled := true, paused := paused }

def ofOptions (o : QueueOptions) (processors : Count) : Except QueueRefusal (Queue α) :=
  let workers := o.workers processors
  if workers = 0 then .error .noWorkers else .ok (start workers.toNat o.startPaused)

end Queue

end ReadAhead
