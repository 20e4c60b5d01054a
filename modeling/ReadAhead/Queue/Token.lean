import ReadAhead.Queue.Outcome

/-!
  Cancellation tokens — flags that work can look at

  A token is a reference to a flag; a copy of a token refers to the same flag.
  Flags are raised and never lowered.

  Correspondence (operation ↔ definition):
    `CancellationToken`, its shared flag ↔ `Token`, `Flags`
    `cancel`, `is_cancelled`, `check`    ↔ `Flags.cancel`, `Flags.isCancelled`, `Flags.check`
-/

namespace ReadAhead

structure Token where
  flag : Nat
  deriving DecidableEq, Repr

structure Flags where
  raised : Array Bool
  deriving DecidableEq, Repr

namespace Flags

def empty : Flags := ⟨#[]⟩

/-- A token for a flag of its own, which is not raised. -/
def fresh (fs : Flags) : Token × Flags := (⟨fs.raised.size⟩, ⟨fs.raised.push false⟩)

def cancel (fs : Flags) (t : Token) : Flags := ⟨fs.raised.setIfInBounds t.flag true⟩

def isCancelled (fs : Flags) (t : Token) : Bool := fs.raised.getD t.flag false

/-- Fails if the flag of a token is raised. -/
def check (fs : Flags) (t : Token) : Except TaskFault Unit :=
  if fs.isCancelled t then .error .cancelled else .ok ()

end Flags

end ReadAhead
