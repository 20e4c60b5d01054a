/-!
  Streams — values that can be watched

  A stream holds its latest value and counts how often it has changed.
  Publishing a value equal to the present one does nothing. A receiver knows up
  to which change it has looked; it never sees the values in between, only that
  there is something new, and the latest.

  Correspondence (operation ↔ definition):
    `Observable::set`, `send_if_modified` ↔ `Stream.publish`
    `subscribe`, `has_changed`            ↔ `Stream.subscribe`, `Stream.hasChanged`
-/

namespace ReadAhead

/-- A value that can be watched, and the number of its changes. -/
structure Stream (α : Type) where
  value : α
  version : Nat
  deriving DecidableEq, Repr

/-- A watcher of a stream: the number of changes up to which it has looked. -/
structure Receiver where
  seen : Nat
  deriving DecidableEq, Repr

namespace Stream

variable {α : Type}

def ofValue (value : α) : Stream α := ⟨value, 0⟩

/-- Replaces the value, unless the new one is equal to it. -/
def publish [BEq α] (s : Stream α) (value : α) : Stream α :=
  if s.value == value then s else ⟨value, s.version + 1⟩

theorem value_publish_or [BEq α] (s : Stream α) (value : α) :
    (s.publish value).value = value ∨ ((s.publish value).value == value) = true := by
  unfold publish
  split
  · next same => exact .inr same
  · exact .inl rfl

theorem value_publish [BEq α] [LawfulBEq α] (s : Stream α) (value : α) :
    (s.publish value).value = value := by
  rcases value_publish_or s value with same | equal
  · exact same
  · exact eq_of_beq equal

theorem value_publish_congr [BEq α] {s s' : Stream α} (h : s'.value = s.value) (value : α) :
    (s'.publish value).value = (s.publish value).value := by
  unfold publish
  rw [h]
  split
  · exact h
  · rfl

theorem publish_value [BEq α] [ReflBEq α] (s : Stream α) : s.publish s.value = s :=
  if_pos BEq.rfl

def subscribe (s : Stream α) : Receiver := ⟨s.version⟩

/-- Whether there is something that the watcher has not seen. -/
def hasChanged (s : Stream α) (r : Receiver) : Bool := r.seen != s.version

end Stream

end ReadAhead
