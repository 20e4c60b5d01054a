import ReadAhead.Numeric.Count
import ReadAhead.Queue.Priority

/-!
  Viewports — what is on the screen, and what follows from it for every page

  A viewport is a range of pages on the screen, the number of pages of the
  document and a margin. Every page gets a priority: those on the screen the
  highest, those within the margin the next, all others and those outside the
  document the lowest. A set of pages wanted in advance raises the pages of the
  document that are in it to the middle level, and lowers none.

  Correspondence (operation ↔ definition):
    `new`, `single`               ↔ `Viewport.between`, `Viewport.ofPage`
    `visible_pages`, `is_visible` ↔ `Viewport.visible?`, `Viewport.isVisible`
    `priority_for`                ↔ `Viewport.priority`
    `priority_with_preload`       ↔ `Viewport.priorityWith`
-/

namespace ReadAhead

/-- The part of a document that is on the screen. -/
structure Viewport where
  first : Count
  last : Count
  pageCount : Count
  /-- How far from the screen a page may be and still be near it. -/
  margin : Count
  deriving DecidableEq, Repr

namespace Viewport

/-- The viewport between two pages in either order, moved into the document,
with a margin of one page. -/
def between (a b pageCount : Count) : Viewport where
  first := min (min a b) (Count.subFloored pageCount 1)
  last := min (max a b) (Count.subFloored pageCount 1)
  pageCount := pageCount
  margin := 1

def ofPage (page pageCount : Count) : Viewport := between page page pageCount

def withMargin (v : Viewport) (margin : Count) : Viewport := { v with margin := margin }

/-- The first and last page on the screen, if there is any. -/
def visible? (v : Viewport) : Option (Count × Count) :=
  if v.pageCount = 0 ∨ v.last < v.first then none else some (v.first, v.last)

def isVisible (v : Viewport) (page : Count) : Bool :=
  match v.visible? with
  | none => false
  | some (first, last) => first ≤ page && page ≤ last

def isNear (v : Viewport) (page : Count) : Bool :=
  Count.subFloored v.first v.margin ≤ page && page ≤ Count.addCapped v.last v.margin

def priority (v : Viewport) (page : Count) : Priority :=
  if v.pageCount ≤ page then .thumbnail
  else if v.isVisible page then .visible
  else if v.isNear page then .nearby
  else .thumbnail

/-- The priority of a page when some pages are wanted in advance. -/
def priorityWith (v : Viewport) (wanted : List Count) (page : Count) : Priority :=
  match v.priority page with
  | .thumbnail => if page < v.pageCount && wanted.contains page then .nearby else .thumbnail
  | p => p

end Viewport

end ReadAhead
