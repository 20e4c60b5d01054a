import ReadAhead.Planner.Tuning
import ReadAhead.Planner.Window

/-!
  Frame windows — when the screen is too busy

  The latest frame intervals are averaged, and the late frames at the end of
  the series are counted. The load is high when both agree: the average is
  above the threshold for a late frame, and the run of late frames is long
  enough. A single long frame does not make a high load, nor does a run of
  frames that are barely late after many quick ones.

  Correspondence (operation ↔ definition):
    `FrameMetrics`, `FrameVerdict` ↔ `FrameWindow`, `FrameLoad`
    `record`, `average_ms`         ↔ `FrameWindow.observe`, `FrameWindow.average`
    `is_plausible`                 ↔ `FrameWindow.isMeasurement`
-/

namespace ReadAhead

inductive FrameLoad where
  /-- Nothing: it is no plausible measurement. -/
  | discarded
  /-- The load is not high. -/
  | smooth
  /-- The load is high. -/
  | overloaded
  deriving DecidableEq, Repr

/-- The latest frame intervals, in milliseconds. -/
structure FrameWindow (α : Type) where
  /-- The intervals, oldest first. -/
  intervals : List α
  /-- How many frames up to the latest were late without a break. -/
  lateRun : Nat

namespace FrameWindow

variable {α : Type} [Quantity α]

def empty : FrameWindow α := ⟨[], 0⟩

/-- The average interval, summed oldest first; zero if there is none. -/
def average (w : FrameWindow α) : α :=
  if w.intervals.isEmpty then Quantity.ofNat 0
  else Quantity.sum w.intervals / Quantity.ofNat w.intervals.length

def isMeasurement (t : Tuning α) (interval : α) : Bool :=
  Quantity.isPositive interval && decide (interval ≤ t.longestFrame)

def push (t : Tuning α) (w : FrameWindow α) (interval : α) : FrameWindow α where
  intervals := Window.push t.frameWindow.toNat w.intervals interval
  lateRun := if t.lateFrame < interval then w.lateRun + 1 else 0

def isOverloaded (t : Tuning α) (w : FrameWindow α) : Bool :=
  decide (t.lateFrame < w.average) && decide (t.lateRun.toNat ≤ w.lateRun)

def observe (t : Tuning α) (w : FrameWindow α) (interval : α) : FrameLoad × FrameWindow α :=
  if isMeasurement t interval then
    let w := w.push t interval
    (if w.isOverloaded t then .overloaded else .smooth, w)
  else (.discarded, w)

end FrameWindow

end ReadAhead
