import Std.Data.HashMap
import Std.Data.TreeMap
import ReadAhead.Cache.Statistics

/-!
  Store — resident entries, in two maps

  The entries are found by key in one map, and each carries the number of its
  last use. A second map leads from these numbers back to the keys, so the
  entry used longest ago is the one with the smallest number. Numbers are given
  out once, in ascending order.

  Sizes are 64-bit words, and `size` is kept along with every change instead of
  being summed. Evicting (`shrink`) takes entries in the order of the second
  map until the size is down to a target. Every eviction uses up one number, so
  there are at most as many rounds as numbers.

  Nothing here decides when to evict and to what target: the operations of the
  cache do (`Cache/Operation`).

  The numbers of last use and the four counters are natural numbers, where the program has
  64-bit words. A call gives out one number at most and puts one entry in at most, and what
  is evicted was put in before, so only a run of 2 ^ 64 calls could tell them apart.

  Correspondence (operation ↔ definition):
    `CacheState`              ↔ `Store`
    `Entry`, `EvictionReason` ↔ `Resident`, `Reason`
    `insert`, `touch`, `take` ↔ `Store.insert`, `Store.markUsed`, `Store.extract`
    `evict_lru`               ↔ `Store.dropOldest`
    `evict_until`             ↔ `Store.shrink`
    `stats`, `keys_lru_order` ↔ `Store.statistics`, `Store.keysOldestFirst`
-/

namespace ReadAhead

/-- Why an entry left the cache otherwise than by being taken out. -/
inductive Reason where
  /-- To make room for a new entry. -/
  | capacity
  /-- Because the cache was told to shrink. -/
  | trimmed
  /-- Because its key was given a new value. -/
  | replaced
  /-- Because the cache was emptied. -/
  | cleared
  deriving DecidableEq, Repr

/-- An entry that left the cache, as it is handed to whoever frees it. -/
structure Departure (K V : Type) where
  key : K
  value : V
  reason : Reason
  deriving DecidableEq, Repr

/-- An entry of the cache: its value, its accounted size and the number of its
last use. -/
structure Resident (V : Type) where
  value : V
  size : Count
  recency : Nat

/-- The contents of a cache and what it has counted. -/
structure Store (K V : Type) [BEq K] [Hashable K] where
  entries : Std.HashMap K (Resident V)
  /-- The key behind each number of last use. -/
  recency : Std.TreeMap Nat K
  /-- The next number to be given out. -/
  nextRecency : Nat
  /-- The accounted size of all entries. -/
  size : Count
  budget : Count
  hits : Nat
  misses : Nat
  evictions : Nat
  puts : Nat

namespace Store

variable {K V : Type} [BEq K] [Hashable K]

def empty (budget : Count) : Store K V where
  entries := ∅
  recency := ∅
  nextRecency := 0
  size := 0
  budget := budget
  hits := 0
  misses := 0
  evictions := 0
  puts := 0

def find? (s : Store K V) (key : K) : Option V := s.entries[key]?.map (·.value)

def contains (s : Store K V) (key : K) : Bool := s.entries.contains key

def keysOldestFirst (s : Store K V) : List K := s.recency.toList.map (·.2)

def length (s : Store K V) : Nat := s.entries.size

def isEmpty (s : Store K V) : Bool := s.entries.isEmpty

def statistics (s : Store K V) : CacheStatistics where
  entries := s.length
  size := s.size
  budget := s.budget
  hits := s.hits
  misses := s.misses
  evictions := s.evictions
  puts := s.puts

/-- Adds an entry under a key that has none, as the one used last. -/
def insert (s : Store K V) (key : K) (value : V) (size : Count) : Store K V :=
  { s with
    entries := s.entries.insert key ⟨value, size, s.nextRecency⟩
    recency := s.recency.insert s.nextRecency key
    nextRecency := s.nextRecency + 1
    size := s.size + size }

def markUsed (s : Store K V) (key : K) : Store K V :=
  match s.entries[key]? with
  | none => { s with nextRecency := s.nextRecency + 1 }
  | some entry =>
    { s with
      entries := s.entries.insert key { entry with recency := s.nextRecency }
      recency := (s.recency.erase entry.recency).insert s.nextRecency key
      nextRecency := s.nextRecency + 1 }

def extract (s : Store K V) (key : K) : Option V × Store K V :=
  match s.entries[key]? with
  | none => (none, s)
  | some entry =>
    (some entry.value,
      { s with
        entries := s.entries.erase key
        recency := s.recency.erase entry.recency
        size := s.size - entry.size })

/-- The number of the use longest ago, and the key behind it. -/
def oldest? (s : Store K V) : Option (Nat × K) := do
  let number ← s.recency.minKey?
  let key ← s.recency[number]?
  return (number, key)

def dropOldest (s : Store K V) : Option (K × V) × Store K V :=
  match s.oldest? with
  | none => (none, s)
  | some (number, key) =>
    let s := { s with recency := s.recency.erase number }
    match s.entries[key]? with
    -- not reached while the two maps belong together
    | none => (none, s)
    | some entry =>
      (some (key, entry.value),
        { s with
          entries := s.entries.erase key
          size := s.size - entry.size
          evictions := s.evictions + 1 })

/-- Evicts in at most so many rounds until the size is down to the target. -/
def shrinkRounds (target : Count) (reason : Reason) :
    Nat → Store K V → List (Departure K V) × Store K V
  | 0, s => ([], s)
  | rounds + 1, s =>
    if target < s.size then
      match s.dropOldest with
      | (none, s) => ([], s)
      | (some (key, value), s) =>
        let (rest, s) := shrinkRounds target reason rounds s
        (⟨key, value, reason⟩ :: rest, s)
    else ([], s)

/-- Evicts, the entry used longest ago first, until the size is down to the
target. -/
def shrink (s : Store K V) (target : Count) (reason : Reason) :
    List (Departure K V) × Store K V :=
  shrinkRounds target reason s.recency.size s

/-- Drops all entries, and lists them with the one used longest ago first. -/
def clear (s : Store K V) : List (Departure K V) × Store K V :=
  (s.keysOldestFirst.filterMap fun key =>
      s.entries[key]?.map fun entry => ⟨key, entry.value, .cleared⟩,
    { s with entries := ∅, recency := ∅, size := 0 })

end Store

end ReadAhead
