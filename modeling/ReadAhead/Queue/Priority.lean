/-!
  Priorities — which pages are rendered first

  Three levels. All but the highest are background work: work whose result is
  not on the screen, and which can be switched off.

  Correspondence (operation ↔ definition):
    `RenderPriority` ↔ `Priority`
    `is_background`  ↔ `Priority.isBackground`
-/

namespace ReadAhead

inductive Priority where
  /-- For the strip of thumbnails. -/
  | thumbnail
  /-- For a page near those on the screen. -/
  | nearby
  /-- For a page on the screen. -/
  | visible
  deriving DecidableEq, Repr

namespace Priority

/-- The place of a priority in the order of urgency. -/
def rank : Priority → Nat
  | .thumbnail => 0
  | .nearby => 1
  | .visible => 2

/-- Whether the work is not for the screen. -/
def isBackground (p : Priority) : Bool := p != .visible

def sort (ps : List Priority) : List Priority := ps.mergeSort fun a b => a.rank ≤ b.rank

end Priority

end ReadAhead
