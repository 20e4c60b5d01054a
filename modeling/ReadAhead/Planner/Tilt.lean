import ReadAhead.Planner.Tuning

/-!
  Tilt — from accelerometer readings to swipe sensitivity

  Readings are smoothed axis by axis, which leaves the direction of gravity. Its
  pitch is compared with the pitch at which a device is held for reading: a
  deviation within the dead zone is ignored, and beyond it the sensitivity
  grows in proportion, up to that at full tilt. Readings that are no numbers,
  or too weak to have a direction, are discarded.

  Correspondence (operation ↔ definition):
    `TiltFilter`, `TiltReading` ↔ `GravityFilter`, `Tilt`
    `record`, `intensity`       ↔ `GravityFilter.observe`, `GravityFilter.intensity`
-/

namespace ReadAhead

/-- What an acceleration amounts to. -/
structure Tilt (α : Type) where
  /-- How far the device is tilted, from zero to one. -/
  intensity : α
  /-- The sensitivity to swipes; one is that of a device held still. -/
  sensitivity : α

/-- The smoothed direction of gravity, if there was a reading. -/
structure GravityFilter (α : Type) where
  gravity : Option (Axes α)

namespace GravityFilter

variable {α : Type} [Quantity α]

def initial : GravityFilter α := ⟨none⟩

/-- The weakest acceleration with a usable direction, in metres per second
squared. -/
def weakest : α := Quantity.ofNat 1 / Quantity.ofNat 2

def isUsable (raw : Axes α) : Bool :=
  raw.all Quantity.isFinite && !decide (Quantity.magnitude raw < weakest)

def smooth (t : Tuning α) (f : GravityFilter α) (raw : Axes α) : Axes α :=
  match f.gravity with
  | none => raw
  | some previous =>
    previous.zipWith (fun old new => old + t.tiltWeight * (new - old)) raw

/-- How far a pitch is beyond the dead zone, as a part of the way to full
tilt. -/
def intensity (t : Tuning α) (pitch : α) : α :=
  let deviation := Quantity.abs (pitch - t.neutralPitch)
  Quantity.clampUnit
    (Quantity.positivePart (deviation - t.deadZone) / (t.fullTilt - t.deadZone))

def sensitivity (t : Tuning α) (intensity : α) : α :=
  Quantity.ofNat 1 + intensity * (t.fullSensitivity - Quantity.ofNat 1)

/-- Takes in a reading; nothing if it is discarded. -/
def observe (t : Tuning α) (f : GravityFilter α) (raw : Axes α) :
    Option (Tilt α × GravityFilter α) :=
  if isUsable raw then
    let gravity := f.smooth t raw
    let intensity := intensity t (Quantity.pitchDegrees gravity)
    some (⟨intensity, sensitivity t intensity⟩, ⟨some gravity⟩)
  else none

end GravityFilter

end ReadAhead
