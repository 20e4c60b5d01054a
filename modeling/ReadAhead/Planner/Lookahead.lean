import ReadAhead.Planner.Tuning

/-!
  Lookahead — which pages to prefetch at a position

  The pages to prefetch follow the page shown without a gap, and none is beyond
  the end of the document. There are at least the least and at most the most
  that the tuning allows: the least, one more for every full step of reading
  speed, and, while the reader is reading at all, a share of the pages for full
  tilt. The sums stop at the largest count, so positions and limits near it are
  no exception.

  Correspondence (operation ↔ definition):
    `preload_size`   ↔ `Tuning.lookahead`
    `preload_window` ↔ `Tuning.lookaheadPages`
-/

namespace ReadAhead

/-- The page shown, in a document of so many. -/
structure Position where
  page : Count
  pageCount : Count
  deriving DecidableEq, Repr

def pagesBetween (first last : Count) : List Count :=
  (List.range' first.toNat (last.toNat + 1 - first.toNat)).map UInt64.ofNat

namespace Tuning

variable {α : Type} [Quantity α]

/-- How many pages to prefetch at a reading speed and an intensity of tilt. Tilt
counts only while reading. -/
def lookahead (t : Tuning α) (speed intensity : α) : Count :=
  let forSpeed := Quantity.floorCount (speed / t.speedPerPage)
  let forTilt :=
    if Quantity.ofNat 0 < speed then
      Quantity.roundCount (intensity * Quantity.ofCount t.tiltPages)
    else 0
  min (Count.addCapped (Count.addCapped t.leastPreload forSpeed) forTilt) t.mostPreload

/-- The pages to prefetch at a position: so many behind it as the speed and the
tilt call for, up to the end of the document. -/
def lookaheadPages (t : Tuning α) (p : Position) (speed intensity : α) : List Count :=
  pagesBetween (Count.addCapped p.page 1)
    (min (Count.addCapped p.page (t.lookahead speed intensity)) (Count.subFloored p.pageCount 1))

end Tuning

end ReadAhead
