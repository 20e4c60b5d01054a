import ReadAhead.Numeric.Quantity
import ReadAhead.Stream

/-!
  Planner outputs — what the planner tells its surroundings

  Five values, all at once (`PlannerOutput`) or each as a stream of its own that
  can be watched (`PlannerStreams`). `baseline` is what holds before anything
  was taken in.

  Correspondence (operation ↔ definition):
    `FlowSnapshot`, its default ↔ `PlannerOutput`, `PlannerOutput.baseline`
    `Outputs`                   ↔ `PlannerStreams`
-/

namespace ReadAhead

structure PlannerOutput (α : Type) where
  /-- Pages per minute. -/
  readingSpeed : α
  /-- The pages to prefetch, in ascending order. -/
  targets : List Count
  /-- The sensitivity to swipes; one is that of a device held still. -/
  sensitivity : α
  /-- Whether the screen is too busy for anything else. -/
  underLoad : Bool
  /-- The average frame interval in milliseconds. -/
  frameInterval : α
  deriving BEq

/-- The outputs of a planner, each of which can be watched. -/
structure PlannerStreams (α : Type) where
  readingSpeed : Stream α
  targets : Stream (List Count)
  sensitivity : Stream α
  underLoad : Stream Bool
  frameInterval : Stream α

variable {α : Type} [Quantity α]

def PlannerOutput.baseline : PlannerOutput α where
  readingSpeed := Quantity.ofNat 0
  targets := []
  sensitivity := Quantity.ofNat 1
  underLoad := false
  frameInterval := Quantity.ofNat 0

namespace PlannerStreams

def ofOutput (o : PlannerOutput α) : PlannerStreams α where
  readingSpeed := .ofValue o.readingSpeed
  targets := .ofValue o.targets
  sensitivity := .ofValue o.sensitivity
  underLoad := .ofValue o.underLoad
  frameInterval := .ofValue o.frameInterval

def latest (s : PlannerStreams α) : PlannerOutput α where
  readingSpeed := s.readingSpeed.value
  targets := s.targets.value
  sensitivity := s.sensitivity.value
  underLoad := s.underLoad.value
  frameInterval := s.frameInterval.value

def publish (s : PlannerStreams α) (o : PlannerOutput α) : PlannerStreams α where
  readingSpeed := s.readingSpeed.publish o.readingSpeed
  targets := s.targets.publish o.targets
  sensitivity := s.sensitivity.publish o.sensitivity
  underLoad := s.underLoad.publish o.underLoad
  frameInterval := s.frameInterval.publish o.frameInterval

end PlannerStreams

end ReadAhead
