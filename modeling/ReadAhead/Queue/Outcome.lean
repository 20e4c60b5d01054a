/-!
  Outcomes — how tasks end

  The work of a task ends in one of three ways (`WorkResult`), and may flag the
  task's own token as cancelled before it does. The task as a whole ends with a
  value or an error (`TaskAnswer`): besides those of the work there is
  cancellation, which can come from outside.

  Work that breaks down leaves something behind, of which the task is told the text.
  That letting go of the rest can break down as well is not said here: it is no way for
  a task to end, but one for a worker to be lost, and `Queue/Crew` has it.

  Correspondence (operation ↔ definition):
    `TaskError`, `TaskResult`               ↔ `TaskFault`, `TaskAnswer`
    what the job closure does with a result ↔ `WorkEnd.toTaskAnswer`
    `TaskOutcome`                           ↔ `Ending`
-/

namespace ReadAhead

inductive TaskFault where
  | cancelled
  /-- Its work failed, for a reason told in steps from the outermost to the
  root. -/
  | failed (reasons : List String)
  /-- Its work broke down, with a text if it left one. -/
  | crashed (text : Option String)
  deriving DecidableEq, Repr

namespace TaskFault

def message : TaskFault → String
  | .cancelled => "render task cancelled"
  | .failed reasons => "render task failed: " ++ ": ".intercalate reasons
  | .crashed text => "render task panicked: " ++ text.getD "unknown panic"

def isCancelled : TaskFault → Bool
  | .cancelled => true
  | _ => false

end TaskFault

abbrev TaskAnswer (α : Type) := Except TaskFault α

inductive WorkResult (α : Type) where
  | value (a : α)
  | error (reasons : List String)
  | crash (text : Option String)

/-- The end of a task's work: its result, and whether it flagged its own token
first. -/
structure WorkEnd (α : Type) where
  result : WorkResult α
  flagsToken : Bool

namespace WorkEnd

/-- Work that ends without touching its token. -/
def ofResult {α : Type} (result : WorkResult α) : WorkEnd α := ⟨result, false⟩

/-- What a task comes to whose work ended, given whether its token is flagged.
A flag makes a value or an error a cancellation, but not a breakdown. -/
def toTaskAnswer {α : Type} (e : WorkEnd α) (flagged : Bool) : TaskAnswer α :=
  match e.result with
  | .crash text => .error (.crashed text)
  | .value a => if flagged then .error .cancelled else .ok a
  | .error reasons => if flagged then .error .cancelled else .error (.failed reasons)

end WorkEnd

/-- The counters under which ended tasks are booked. -/
inductive Ending where
  | completed
  | failed
  | cancelled
  deriving DecidableEq, Repr

def Ending.ofResult {α : Type} : TaskAnswer α → Ending
  | .ok _ => .completed
  | .error .cancelled => .cancelled
  | .error _ => .failed

end ReadAhead
