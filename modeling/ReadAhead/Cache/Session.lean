import ReadAhead.Cache.Operation

/-!
  Cache sessions — a cache in use, with a hook that frees what leaves it

  Whoever uses the cache is a program: a tree of calls, each of whose
  continuations depends on the answer (`CacheProgram`). The hook is called for
  every entry that left, once the operation is over, and may itself run a
  program on the same cache before it returns. What the hook does can depend on
  everything that has happened before, so it is a function of the history.

  A session is run one step at a time (`Session.step`). What remains to be done
  is a stack: the program of the user at the bottom, and above it, innermost on
  top, the entries still to be freed and the programs of hooks that have not
  returned. A session is over when the stack is empty; not every session comes
  to an end, as a hook may keep the cache busy for ever.

  Correspondence (operation ↔ definition):
    `release_all`, after the lock is given back ↔ `Remainder.release`
    `ReleaseFn`                                 ↔ `ReleaseHook`
    calls from within the hook                  ↔ `Remainder.program`, on top of the stack
-/

namespace ReadAhead

/-- A program that uses the cache: calls it and goes on with the answer. -/
inductive CacheProgram (K V : Type) where
  | done
  | call (use : CacheCall K V) (next : CacheAnswer V → CacheProgram K V)

/-- A program that makes the calls of a list and looks at no answer. -/
def CacheProgram.ofCalls {K V : Type} : List (CacheCall K V) → CacheProgram K V
  | [] => .done
  | c :: cs => .call c fun _ => ofCalls cs

inductive CacheEvent (K V : Type) where
  | called (use : CacheCall K V) (answer : CacheAnswer V)
  /-- The hook was called for an entry, while the cache had so many entries of
  so many bytes. -/
  | released (departure : Departure K V) (length : Nat) (size : Count)

/-- What frees the entries that leave: the program to run for an entry, given
what has happened so far, the latest first. -/
abbrev ReleaseHook (K V : Type) := List (CacheEvent K V) → Departure K V → CacheProgram K V

def ReleaseHook.quiet {K V : Type} : ReleaseHook K V := fun _ _ => .done

/-- Something a session still has to do. -/
inductive Remainder (K V : Type) where
  /-- Run a program. -/
  | program (p : CacheProgram K V)
  /-- Call the hook for these entries, in order. -/
  | release (departed : List (Departure K V))

structure Session (K V : Type) [BEq K] [Hashable K] where
  store : Store K V
  /-- What has happened, the latest first. -/
  history : List (CacheEvent K V)
  /-- What remains to be done, the innermost first. -/
  stack : List (Remainder K V)

namespace Session

variable {K V : Type} [BEq K] [Hashable K]

def start (store : Store K V) (p : CacheProgram K V) : Session K V := ⟨store, [], [.program p]⟩

/-- One step of a session, if it is not over. A call is carried out whole
before the hook is called for the entries that left, and these are freed before
the caller goes on. -/
def step (measure : K → V → Count) (hook : ReleaseHook K V) (s : Session K V) :
    Option (Session K V) :=
  match s.stack with
  | [] => none
  | .program .done :: rest => some { s with stack := rest }
  | .program (.call use next) :: rest =>
    let (answer, departed, store) := s.store.perform measure use
    some {
      store := store
      history := .called use answer :: s.history
      stack := .release departed :: .program (next answer) :: rest }
  | .release [] :: rest => some { s with stack := rest }
  | .release (d :: ds) :: rest =>
    some { s with
      history := .released d s.store.length s.store.size :: s.history
      stack := .program (hook s.history d) :: .release ds :: rest }

def advance (measure : K → V → Count) (hook : ReleaseHook K V) : Nat → Session K V → Session K V
  | 0, s => s
  | steps + 1, s =>
    match s.step measure hook with
    | none => s
    | some s => advance measure hook steps s

end Session

end ReadAhead
