import ReadAhead.Queue.Event

/-!
  Receipts — what the submitter of a task holds

  A receipt names a task. Its result can be asked for without waiting, and is
  given out once: whoever asks again is told that the task was cancelled.

  Correspondence (operation ↔ definition):
    `TaskHandle`                 ↔ `Receipt`
    `try_result`, `wait`, `poll` ↔ `Receipt.poll`
    `cancel`                     ↔ `Receipt.cancel`
-/

namespace ReadAhead

/-- What the submitter of a task gets for it. -/
structure Receipt where
  id : TaskNumber
  priority : Priority
  /-- Whether the result was given out. -/
  taken : Bool
  deriving DecidableEq, Repr

namespace Receipt

variable {α : Type}

def ofTask (id : TaskNumber) (priority : Priority) : Receipt := ⟨id, priority, false⟩

/-- The result, if the task has ended, and the receipt after it was asked for. -/
def poll (r : Receipt) (q : Queue α) : Option (TaskAnswer α) × Receipt :=
  if r.taken then (some (.error .cancelled), r)
  else
    match q.result? r.id with
    | none => (none, r)
    | some result => (some result, { r with taken := true })

def cancel (r : Receipt) (q : Queue α) : Bool × Queue α := q.cancel r.id

end Receipt

end ReadAhead
