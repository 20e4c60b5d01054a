import ReadAhead.Cache.Store
import ReadAhead.Cache.Pressure
import ReadAhead.Numeric.Binary64

/-!
  Cache operations — what a user of the cache can ask of it

  Ten operations on a store, each a function from the store before it to the
  store after it, with an answer and the entries that left. The entries leave
  in a fixed order: first the one whose key was given a new value, then those
  that were evicted, the one used longest ago first.

  An entry larger than the whole budget is kept, alone: everything else is
  evicted for it.

  `CacheCall` names the operations as data and `Store.perform` carries one out,
  so that a run of the cache is a list of calls.

  Correspondence (operation ↔ definition):
    `put`, `get`, `remove`             ↔ `Store.put`, `Store.get`, `Store.extract`
    `peek`, `contains`                 ↔ `Store.find?`, `Store.contains`
    `trim_to_size`, `trim_to_fraction` ↔ `Store.trimTo`, `Store.trimToShare` with `Store.shareOf`
    `on_memory_pressure`               ↔ `Store.relieve`
    `evict_all`, `set_max_size`        ↔ `Store.clear`, `Store.setBudget`
    the lock around a call             ↔ one `Store.perform`
-/

namespace ReadAhead

inductive CacheCall (K V : Type) where
  | put (key : K) (value : V)
  | get (key : K)
  | peek (key : K)
  | contains (key : K)
  | remove (key : K)
  /-- Shrink to a share of the budget. -/
  | trimToShare (share : Float)
  | trimTo (target : Count)
  /-- Shrink as far as the memory pressure asks. -/
  | relieve (pressure : Pressure)
  | clear
  | setBudget (budget : Count)

inductive CacheAnswer (V : Type) where
  | done
  | value (found : Option V)
  | present (yes : Bool)
  /-- How many entries the operation evicted. -/
  | evicted (count : Nat)

namespace Store

variable {K V : Type} [BEq K] [Hashable K]

/-- Puts a value under a key. Room is made for it before it is added: down to
the budget less its size, or down to nothing if it exceeds the budget. -/
def put (measure : K → V → Count) (s : Store K V) (key : K) (value : V) :
    List (Departure K V) × Store K V :=
  let size := measure key value
  -- the old entry goes first, so that its size does not count against the new one
  let (old, s) := { s with puts := s.puts + 1 }.extract key
  let target := if s.budget < size then 0 else s.budget - size
  let (evicted, s) := s.shrink target .capacity
  ((old.map (⟨key, ·, .replaced⟩)).toList ++ evicted, s.insert key value size)

/-- Looks up a key, and makes its entry the one used last. -/
def get (s : Store K V) (key : K) : Option V × Store K V :=
  match s.find? key with
  | none => (none, { s with misses := s.misses + 1 })
  | some value => (some value, { s.markUsed key with hits := s.hits + 1 })

def trimTo (s : Store K V) (target : Count) : List (Departure K V) × Store K V :=
  s.shrink target .trimmed

/-- The size to which a share of a budget comes; a share outside the unit
interval counts as the nearer end of it. -/
def shareOf (budget : Count) (share : Float) : Count :=
  Quantity.floorCount (Quantity.ofCount budget * Quantity.clampUnit share)

/-- Evicts down to a share of the budget. A share that is infinite or no number
is ignored. -/
def trimToShare (s : Store K V) (share : Float) : List (Departure K V) × Store K V :=
  if share.isFinite then s.trimTo (shareOf s.budget share) else ([], s)

/-- Evicts down to the share of the budget that the pressure leaves. -/
def relieve (s : Store K V) (pressure : Pressure) : List (Departure K V) × Store K V :=
  s.trimToShare pressure.retainedShare

def setBudget (s : Store K V) (budget : Count) : List (Departure K V) × Store K V :=
  { s with budget := budget }.trimTo budget

/-- Carries out a use of the cache: what it answers, the entries that left in
the order in which they are to be freed, and the store after it. -/
def perform (measure : K → V → Count) (s : Store K V) :
    CacheCall K V → CacheAnswer V × List (Departure K V) × Store K V
  | .put key value => (.done, s.put measure key value)
  | .get key =>
    let (found, s) := s.get key
    (.value found, [], s)
  | .peek key => (.value (s.find? key), [], s)
  | .contains key => (.present (s.contains key), [], s)
  | .remove key =>
    let (found, s) := s.extract key
    (.value found, [], s)
  | .trimToShare share =>
    let (departed, s) := s.trimToShare share
    (.evicted departed.length, departed, s)
  | .trimTo target =>
    let (departed, s) := s.trimTo target
    (.evicted departed.length, departed, s)
  | .relieve pressure =>
    let (departed, s) := s.relieve pressure
    (.evicted departed.length, departed, s)
  | .clear => (.done, s.clear)
  | .setBudget budget => (.done, s.setBudget budget)

end Store

end ReadAhead
