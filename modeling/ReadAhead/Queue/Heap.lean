/-!
  Heaps — collections that give back their foremost element

  A skew heap: a binary tree with its foremost element on top, in which the
  subtrees of a node are swapped whenever something is merged below it. All
  operations are merges. What comes first is decided by a test that is handed to
  each of them.

  `Heap.toList` is the contents in no particular order, and `Heap.drain` takes
  out what passes a test.
-/

namespace ReadAhead

/-- A tree whose nodes carry elements. -/
inductive Heap (α : Type) where
  | empty
  | node (top : α) (left right : Heap α)

namespace Heap

variable {α : Type}

def size : Heap α → Nat
  | empty => 0
  | node _ l r => l.size + r.size + 1

/-- The elements, in no particular order. -/
def toList : Heap α → List α
  | empty => []
  | node a l r => a :: (l.toList ++ r.toList)

/-- One heap with the elements of two. The foremost of the two tops stays on
top; the other heap goes into its right subtree, which changes places with the
left one. -/
def merge (before : α → α → Bool) : Heap α → Heap α → Heap α
  | empty, h => h
  | h, empty => h
  | node a l r, node b l' r' =>
    if before b a then node b (merge before r' (node a l r)) l'
    else node a (merge before r (node b l' r')) l
termination_by g h => g.size + h.size
decreasing_by all_goals simp only [size]; omega

def push (before : α → α → Bool) (h : Heap α) (a : α) : Heap α :=
  merge before h (node a empty empty)

def pop? (before : α → α → Bool) : Heap α → Option (α × Heap α)
  | empty => none
  | node a l r => some (a, merge before l r)

def ofList (before : α → α → Bool) (as : List α) : Heap α := as.foldl (push before) empty

def drain (before : α → α → Bool) (p : α → Bool) (h : Heap α) : List α × Heap α :=
  let (removed, kept) := h.toList.partition p
  (removed, ofList before kept)

end Heap

end ReadAhead
