import ReadAhead.Queue.Event

/-!
  Settling — letting the workers of a queue go as far as they can

  Between two calls from outside, the workers take steps of their own until each
  of them sleeps, is gone or executes work that is not ready to end. `settle`
  takes these steps, always the first worker's that can take one. What the work
  of a task does, and when it is ready to end, is told by a function that may
  also change a state of its own, on which works have effects.

  Every step of a worker uses something up: a task that waits, or one of the
  few things that a worker can do before it sleeps again. `Queue.potential`
  counts them, so it bounds the number of steps (`Proofs/Queue/Settlement`).
-/

namespace ReadAhead

/-- What the work of running tasks does: given a task, whether its token is
flagged and the state of the world, how the work ends and what it leaves; nothing
while it is not ready to end. -/
abbrev Works (σ α : Type) := TaskNumber → Bool → σ → Option (WorkEnd α × σ)

/-- How many steps a worker may take before it needs another task. -/
def Worker.potential : Worker → Nat
  | .awake => 1
  | .asleep => 0
  | .executing _ => 3
  | .recording _ _ => 2
  | .gone => 0

namespace Queue

variable {σ α : Type}

/-- A bound on the steps that the workers can take by themselves. -/
def potential (q : Queue α) : Nat :=
  4 * q.pending.size + (q.workers.map Worker.potential).foldl (· + ·) 0

/-- The step that a worker can take, and the world after it. -/
def workerStep (works : Works σ α) (q : Queue α) (world : σ) (worker : Nat) :
    Worker → Option (QueueEvent α × σ)
  | .awake => some (.look worker, world)
  | .asleep => none
  | .executing id =>
    (works id (q.isFlagged id) world).map fun (workEnd, world) => (.finish worker workEnd, world)
  | .recording _ _ => some (.record worker, world)
  | .gone => none

def nextStep (works : Works σ α) (q : Queue α) (world : σ) : Option (QueueEvent α × σ) :=
  (q.workers.mapIdx fun i w => (i, w)).findSome? fun (i, w) => q.workerStep works world i w

def started (before after : Queue α) : List TaskNumber :=
  after.running.filter (!before.running.contains ·)

/-- Takes at most so many steps of workers: the tasks that they start, in
order, and the queue and the world after them. -/
def settleWithin (works : Works σ α) : Nat → Queue α → σ → List TaskNumber × Queue α × σ
  | 0, q, world => ([], q, world)
  | steps + 1, q, world =>
    match q.nextStep works world with
    | none => ([], q, world)
    | some (event, world) =>
      let after := q.apply event
      let (rest, final) := settleWithin works steps after world
      (q.started after ++ rest, final)

/-- Lets the workers go as far as they can: the tasks that they start, in order,
and the queue and the world after them. -/
def settle (works : Works σ α) (q : Queue α) (world : σ) : List TaskNumber × Queue α × σ :=
  settleWithin works q.potential q world

end Queue

end ReadAhead
