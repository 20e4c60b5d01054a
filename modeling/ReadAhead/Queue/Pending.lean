import ReadAhead.Queue.Heap
import ReadAhead.Queue.Priority

/-!
  Pending tasks — what waits for a worker

  A task waits under its number, which is also its place in the order of
  submission. The next to start is the most urgent one, and the one submitted
  first among equally urgent ones.

  Correspondence (operation ↔ definition):
    `QueuedTask`, its order    ↔ `Ticket`, `Ticket.before`
    `push`, `pop`, `remove`    ↔ `Pending.push`, `Pending.pop?`, `Pending.remove`
    `drain_where`, `drain_all` ↔ `Pending.drain`, `Pending.drainAll`
-/

namespace ReadAhead

/-- The number of a task: tasks are numbered from one, in the order in which
they are submitted. -/
abbrev TaskNumber := Nat

/-- A task that waits, as the heap of pending tasks sees it. -/
structure Ticket where
  id : TaskNumber
  priority : Priority
  deriving DecidableEq, Repr

/-- Whether a task is to start before another. -/
def Ticket.before (a b : Ticket) : Bool :=
  b.priority.rank < a.priority.rank || (a.priority.rank == b.priority.rank && a.id < b.id)

abbrev Pending := Heap Ticket

namespace Pending

def push (p : Pending) (t : Ticket) : Pending := Heap.push Ticket.before p t

def pop? (p : Pending) : Option (Ticket × Pending) := Heap.pop? Ticket.before p

def drain (p : Pending) (test : Ticket → Bool) : List Ticket × Pending :=
  Heap.drain Ticket.before test p

def remove (p : Pending) (id : TaskNumber) : Option Ticket × Pending :=
  let (removed, kept) := p.drain (·.id == id)
  (removed.head?, kept)

def drainAll (p : Pending) : List Ticket × Pending := (p.toList, .empty)

end Pending

end ReadAhead
