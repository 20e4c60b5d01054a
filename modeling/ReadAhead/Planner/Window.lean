/-!
  Windows — the latest few of a series

  A window keeps the last elements of a series, oldest first, up to a capacity.
  What is proved: `push_eq_drop` and `length_push_le` say that pushing keeps a
  suffix of what there was with the new element behind it, and never exceeds the
  capacity.
-/

namespace ReadAhead.Window

variable {α : Type}

def push (capacity : Nat) (window : List α) (a : α) : List α :=
  let all := window ++ [a]
  all.drop (all.length - capacity)

theorem push_eq_drop (capacity : Nat) (window : List α) (a : α) :
    push capacity window a = (window ++ [a]).drop (window.length + 1 - capacity) := by
  simp [push]

theorem length_push_le (capacity : Nat) (window : List α) (a : α) :
    (push capacity window a).length ≤ capacity := by
  simp only [push_eq_drop, List.length_drop, List.length_append, List.length_singleton]
  omega

end ReadAhead.Window
