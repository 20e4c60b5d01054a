import ReadAhead.Queue.Event

/-!
  Crew — a queue and the workers that it has lost

  Work that breaks down leaves something behind that says why. Its worker reads the
  text of that, ends the task, lets go of what was left and goes on to record the end.
  The work itself is guarded against breaking down, but the letting go is not: what was
  left may be of a kind that breaks down again when it is let go of, and then the
  worker is lost there and then. The task has ended; that its worker is free again is
  never recorded.

  The steps of a crew are those of its queue, and one more, in which a worker is lost.
  A lost worker takes no step. As long as none is lost, a crew is its queue.

  Correspondence (operation ↔ definition):
    `execute`, up to the end of its `match`        ↔ `Queue.finish`
    the payload of a panic, dropped by that `match` ↔ `Leaving`
    `execute`, under the lock                       ↔ `Queue.record`
    the unwinding of `run`                          ↔ `Crew.lost`
-/

namespace ReadAhead

/-- The worker that takes a step, if a worker does. -/
def QueueEvent.worker? {α : Type} : QueueEvent α → Option Nat
  | .look worker | .finish worker _ | .record worker => some worker
  | .submit .. | .cancel _ | .setBackground _ | .pause | .resume | .stop => none

/-- How the work of a task leaves its worker. -/
inductive Leaving (α : Type) where
  /-- The worker goes on to record the end. -/
  | quiet (workEnd : WorkEnd α)
  /-- The work broke down with such a text, after it flagged its token or not, and
  letting go of what it left breaks down as well. -/
  | fatal (text : Option String) (flagsToken : Bool)

inductive CrewEvent (α : Type) where
  | step (event : QueueEvent α)
  /-- The work that a worker executes breaks down, and the worker is lost. -/
  | lose (worker : Nat) (text : Option String) (flagsToken : Bool)

def CrewEvent.losses {α : Type} : CrewEvent α → List Nat
  | .step _ => []
  | .lose worker .. => [worker]

namespace Leaving

variable {α : Type}

def workEnd : Leaving α → WorkEnd α
  | quiet workEnd => workEnd
  | fatal text flagsToken => ⟨.crash text, flagsToken⟩

def isFatal : Leaving α → Bool
  | quiet _ => false
  | fatal .. => true

def event (worker : Nat) : Leaving α → CrewEvent α
  | quiet workEnd => .step (.finish worker workEnd)
  | fatal text flagsToken => .lose worker text flagsToken

end Leaving

@[ext]
structure Crew (α : Type) where
  queue : Queue α
  /-- The workers that were lost. In the queue they are about to record for ever. -/
  lost : List Nat

namespace Crew

variable {α : Type}

def start (workers : Nat) (paused : Bool) : Crew α := ⟨.start workers paused, []⟩

/-- What a step of the crew does to the queue: nothing if it is one of a lost worker, or
if there is no work for a worker to be lost with. -/
def move? (c : Crew α) : CrewEvent α → Option (QueueEvent α)
  | .step event => if event.worker?.any c.lost.contains then none else some event
  | .lose worker text flagsToken =>
    match c.queue.workers[worker]? with
    | some (.executing _) => some (.finish worker ⟨.crash text, flagsToken⟩)
    | _ => none

def apply (c : Crew α) (event : CrewEvent α) : Crew α :=
  match c.move? event with
  | none => c
  | some move => { queue := c.queue.apply move, lost := event.losses ++ c.lost }

def run (c : Crew α) (events : List (CrewEvent α)) : Crew α := events.foldl apply c

def moves (c : Crew α) : List (CrewEvent α) → List (QueueEvent α)
  | [] => []
  | event :: events => (c.move? event).toList ++ (c.apply event).moves events

end Crew

end ReadAhead
