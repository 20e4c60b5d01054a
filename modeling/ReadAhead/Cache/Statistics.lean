import ReadAhead.Numeric.Quantity

/-!
  Cache statistics — how well the cache serves, and how full it is

  Correspondence (operation ↔ definition):
    `CacheStats`              ↔ `CacheStatistics`
    `hit_rate`, `utilization` ↔ `CacheStatistics.hitRate`, `CacheStatistics.utilization`
-/

namespace ReadAhead

structure CacheStatistics where
  entries : Nat
  size : Count
  budget : Count
  hits : Nat
  misses : Nat
  evictions : Nat
  puts : Nat
  deriving DecidableEq, Repr

namespace CacheStatistics

variable {α : Type} [Quantity α]

/-- The share of look-ups that found an entry; zero before the first one. -/
def hitRate (s : CacheStatistics) : α :=
  if s.hits + s.misses = 0 then Quantity.ofNat 0
  else Quantity.ofNat s.hits / Quantity.ofNat (s.hits + s.misses)

/-- The share of the budget in use; above one only while a single entry exceeds
the budget, and zero if there is none. -/
def utilization (s : CacheStatistics) : α :=
  if s.budget = 0 then Quantity.ofNat 0
  else Quantity.ofCount s.size / Quantity.ofCount s.budget

end CacheStatistics

end ReadAhead
