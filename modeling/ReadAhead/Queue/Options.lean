import ReadAhead.Settings.Environment

/-!
  Queue options — how many workers render, and how they start

  The number of workers is given by the program or by a variable of the
  environment; otherwise it is the number of processors, up to four.

  Correspondence (operation ↔ definition):
    `QueueConfig`, `QueueError` ↔ `QueueOptions`, `QueueRefusal`
    `from_env`                  ↔ `QueueOptions.ofEnvironment`
    `num_cpus`                  ↔ the argument `processors`
-/

namespace ReadAhead

inductive QueueRefusal where
  /-- There would be no worker. -/
  | noWorkers
  /-- A setting has a value that is not admitted. -/
  | settings (cause : SettingsError)
  deriving DecidableEq, Repr

def QueueRefusal.message : QueueRefusal → String
  | .noWorkers => "parallelism must be at least 1"
  | .settings cause => cause.message

structure QueueOptions where
  /-- The number of workers, if it was chosen. -/
  parallelism : Option Count
  startPaused : Bool
  /-- What the names of the worker threads begin with. -/
  threadName : String
  deriving DecidableEq, Repr

namespace QueueOptions

def parallelismVariable : String := "PAGEFLOW_RENDER_PARALLELISM"

/-- The largest number of workers that is not chosen but found. -/
def largestDefault : Count := 4

def standard : QueueOptions := ⟨none, false, "pageflow-render"⟩

def ofParallelism (n : Count) : QueueOptions := { standard with parallelism := some n }

def paused (o : QueueOptions) : QueueOptions := { o with startPaused := true }

def named (o : QueueOptions) (name : String) : QueueOptions := { o with threadName := name }

def ofEnvironment (env : Environment) : Except QueueRefusal QueueOptions :=
  match env.read? Text.count? parallelismVariable with
  | .error e => .error (.settings e)
  | .ok n => .ok { standard with parallelism := n }

/-- The number of workers on a machine with so many processors. -/
def workers (o : QueueOptions) (processors : Count) : Count :=
  o.parallelism.getD (max 1 (min processors largestDefault))

/-- Whether the number of workers is one that could have been found, whatever
the machine. -/
def isInDefaultRange (o : QueueOptions) : Bool :=
  match o.parallelism with
  | none => true
  | some n => 1 ≤ n && n ≤ largestDefault

def workerName (o : QueueOptions) (worker : Nat) : String :=
  o.threadName ++ "-" ++ toString worker

end QueueOptions

end ReadAhead
