import ReadAhead.Numeric.Binary64

/-!
  Accelerations — what the accelerometer reads

  Three coordinates of single precision. They are widened to doubles before
  anything is calculated with them, which changes no value.

  Correspondence (operation ↔ definition):
    `TiltSample`         ↔ `Acceleration`
    `from_pitch_degrees` ↔ `Acceleration.ofPitchDegrees`
-/

namespace ReadAhead

/-- A reading of the accelerometer, in metres per second squared. -/
abbrev Acceleration := Axes Float32

namespace Acceleration

def gravity : Float := 9.81

/-- The reading of a device at rest whose top points up by an angle in
degrees. -/
def ofPitchDegrees (degrees : Float) : Acceleration :=
  let angle := Binary64.toRadians degrees
  ⟨0.0, (gravity * angle.sin).toFloat32, (gravity * angle.cos).toFloat32⟩

/-- The reading nearest to three coordinates. -/
def nearest (v : Axes Float) : Acceleration := v.map Float.toFloat32

def widen (a : Acceleration) : Axes Float := a.map Float32.toFloat

end Acceleration

end ReadAhead
