import ReadAhead.Numeric.Count

/-!
  Memory pressure — how much of its budget the cache may keep

  Four levels, from a measured share of memory in use or from the levels that
  a platform reports, and for each the share of the budget that stays.

  Correspondence (operation ↔ definition):
    `from_utilization`, `from_trim_level` ↔ `Pressure.ofUtilization`, `Pressure.ofTrimLevel`
    `retain_fraction`, `needs_eviction`   ↔ `Pressure.retainedShare`, `Pressure.needsEviction`
-/

namespace ReadAhead

/-- How scarce memory is. -/
inductive Pressure where
  | low
  | moderate
  | high
  | critical
  deriving DecidableEq, Repr

namespace Pressure

/-- The place of a level in the order of scarcity. -/
def rank : Pressure → Nat
  | .low => 0
  | .moderate => 1
  | .high => 2
  | .critical => 3

def sort (levels : List Pressure) : List Pressure :=
  levels.mergeSort fun a b => a.rank ≤ b.rank

/-- The level at a share of memory in use. A share that is no number tells
nothing and counts as none. -/
def ofUtilization (share : Float) : Pressure :=
  if share.isNaN || share < 0.5 then .low
  else if share < 0.75 then .moderate
  else if share < 0.9 then .high
  else .critical

/-- The level for a number reported by the platform; all from three up mean the
same. -/
def ofTrimLevel : Nat → Pressure
  | 0 => .low
  | 1 => .moderate
  | 2 => .high
  | _ => .critical

/-- The share of the budget that the cache may keep. -/
def retainedShare : Pressure → Float
  | .low => 1.0
  | .moderate => 0.75
  | .high => 0.5
  | .critical => 0.0

/-- Whether the level asks for memory to be given back at once. -/
def needsEviction : Pressure → Bool
  | .low | .moderate => false
  | .high | .critical => true

end Pressure

end ReadAhead
