import ReadAhead.Numeric.Count

/-!
  Page keys — what bitmaps are kept under

  A key names a page rendered at a width, as a whole or one tile of it. Keys
  are ordered by the numbers in them, the page first; a whole page comes before
  its tiles.

  Correspondence (operation ↔ definition):
    `BitmapKey` ↔ `PageKey`
    its order   ↔ `PageKey.precedes`
-/

namespace ReadAhead

/-- Identifies a rendered bitmap: a page rasterised at a width, or one tile of
that page. -/
structure PageKey where
  page : Count
  width : UInt32
  tile : Option (UInt32 × UInt32)
  deriving DecidableEq, Hashable, Repr

namespace PageKey

def wholePage (page : Count) (width : UInt32) : PageKey := ⟨page, width, none⟩

def tileAt (page : Count) (width : UInt32) (x y : UInt32) : PageKey := ⟨page, width, some (x, y)⟩

/-- The place of a tile among the bitmaps of one page and width: the whole page
comes before its tiles, and these come by column, then by row. -/
def tileRank : Option (UInt32 × UInt32) → List Nat
  | none => []
  | some (x, y) => [x.toNat, y.toNat]

/-- The numbers by which keys are ordered, the most significant first. -/
def rank (k : PageKey) : List Nat := k.page.toNat :: k.width.toNat :: tileRank k.tile

/-- Whether a key comes no later than another: by page, by width, by tile. -/
def precedes (k l : PageKey) : Bool := !l.rank.lex k.rank fun a b => a < b

def sort (keys : List PageKey) : List PageKey := keys.mergeSort precedes

end PageKey

end ReadAhead
