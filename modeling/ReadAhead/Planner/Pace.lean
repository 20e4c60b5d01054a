import ReadAhead.Planner.Tuning
import ReadAhead.Planner.Window

/-!
  Pace — the reading speed, estimated from page turns

  The latest turns are kept, one more than the number over which the speed is
  measured. The measured speed is the pages that they cover over the time that
  they span; the estimate moves towards it by a fixed weight, or takes it over
  if there was no estimate.

  Showing the same page again is no turn. A turn after a long pause starts both
  the window and the estimate over; one across many pages starts only the
  window over.

  Two sums stand behind the estimate: one more than the turns that are measured, and
  the pages that the window covers. They are sums of 64-bit counts, and no limit of a
  tuning keeps them within 64 bits. `Pace.accept?` has them as they are, and comes to
  nothing where one does not fit. `Pace.observe` has them as natural numbers, and
  `Pace.fits` says where the two agree; `Proofs/Planner/Checked` proves it.

  Correspondence (operation ↔ definition):
    `ReadingSpeed::record`, with its sums checked  ↔ `Pace.accept?`
    the same, with sums that cannot overflow       ↔ `Pace.observe`
    its two ways of clearing the window            ↔ `Pace.carry`
    `speed_window + 1`                             ↔ `Pace.capacity?`, `Pace.capacity`
    `ReadingSpeed::measure`                        ↔ `Pace.elapsed?`, `Pace.distance?`,
                                                     `Pace.perMinute`
-/

namespace ReadAhead

structure PageTurn where
  page : Count
  moment : Duration
  deriving DecidableEq, Repr

/-- The latest page turns, and the speed estimated so far. -/
structure Pace (α : Type) where
  /-- The turns, oldest first. -/
  turns : List PageTurn
  pagesPerMinute : α

namespace Pace

variable {α : Type} [Quantity α]

def initial : Pace α := ⟨[], Quantity.ofNat 0⟩

def capacity (t : Tuning α) : Nat := t.speedWindow.toNat + 1

def capacity? (t : Tuning α) : Option Count := Count.add? t.speedWindow 1

/-- How many pages the turns cover, back and forth. -/
def distance (turns : List PageTurn) : Nat :=
  (turns.zipWith (fun a b => (Count.distance a.page b.page).toNat) turns.tail).foldl (· + ·) 0

/-- How many pages the turns cover, if all sums on the way to it fit. -/
def distance? (turns : List PageTurn) : Option Count :=
  (turns.zipWith (fun a b => Count.distance a.page b.page) turns.tail).foldlM Count.add? 0

def inSeconds (d : Duration) : α :=
  Quantity.ofNat d.seconds + Quantity.ofNat d.subsecond / Quantity.ofNat Duration.perSecond

def elapsed? (turns : List PageTurn) : Option Duration := do
  let first ← turns.head?
  let last ← turns.getLast?
  if first.moment < last.moment then some (last.moment - first.moment) else none

def perMinute (pages : Nat) (d : Duration) : α :=
  Quantity.ofNat pages * Quantity.ofNat 60 / inSeconds d

/-- The speed over the turns in pages per minute, if they span any time. -/
def measured? (turns : List PageTurn) : Option α := (elapsed? turns).map (perMinute (distance turns))

def smooth (t : Tuning α) (estimate measured : α) : α :=
  if Quantity.ofNat 0 < estimate then
    t.speedWeight * measured + (Quantity.ofNat 1 - t.speedWeight) * estimate
  else measured

/-- What is left of window and estimate when a turn from one page to another
follows. -/
def carry (t : Tuning α) (s : Pace α) (last next : PageTurn) : Pace α :=
  -- a clock that went back shows no time at all between the turns
  if t.idleTime ≤ next.moment - last.moment then initial
  else if t.longestTurn < Count.distance last.page next.page then { s with turns := [] }
  else s

def push (t : Tuning α) (s : Pace α) (next : PageTurn) : Pace α :=
  let turns := Window.push (capacity t) s.turns next
  match measured? turns with
  | none => { s with turns := turns }
  | some measured => ⟨turns, smooth t s.pagesPerMinute measured⟩

def observe (t : Tuning α) (s : Pace α) (next : PageTurn) : Pace α :=
  match s.turns.getLast? with
  | none => s.push t next
  | some last => if last.page = next.page then s else (s.carry t last next).push t next

/-- Adds a turn to the window and measures, if the sums fit. Pages are not summed where
the turns span no time. -/
def push? (t : Tuning α) (s : Pace α) (next : PageTurn) : Option (Pace α) := do
  let capacity ← capacity? t
  let turns := Window.push capacity.toNat s.turns next
  match elapsed? turns with
  | none => return { s with turns := turns }
  | some d =>
    let pages ← distance? turns
    return ⟨turns, smooth t s.pagesPerMinute (perMinute pages.toNat d)⟩

/-- Takes in that a page is shown, if the sums fit. -/
def accept? (t : Tuning α) (s : Pace α) (next : PageTurn) : Option (Pace α) :=
  match s.turns.getLast? with
  | none => s.push? t next
  | some last => if last.page = next.page then some s else (s.carry t last next).push? t next

/-- Whether the sums behind the estimate stay within 64 bits when a page is
shown: the capacity of the window, and the pages that it covers if they are
summed. -/
def fits (t : Tuning α) (s : Pace α) (next : PageTurn) : Bool :=
  let turns := (s.observe t next).turns
  (s.turns.getLast?.map (·.page)) == some next.page ||
    (capacity t < UInt64.size && ((elapsed? turns).isNone || distance turns < UInt64.size))

end Pace

end ReadAhead
