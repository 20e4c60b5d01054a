import ReadAhead.Numeric.Count

/-!
  Time — durations and clocks

  Durations are whole nanoseconds. A clock reading is the duration since an
  origin that does not matter. The clock here moves only when it is told to; it
  counts nanoseconds in 64 bits, and starts over when they overflow.

  Correspondence (operation ↔ definition):
    `ManualClock`                ↔ `SteppedClock`
    `saturating_sub` of readings ↔ `-` of durations
-/

namespace ReadAhead

/-- A length of time in nanoseconds. -/
abbrev Duration := Nat

namespace Duration

def perSecond : Nat := 1000000000

def perMilli : Nat := 1000000

def ofParts (seconds nanoseconds : Nat) : Duration := seconds * perSecond + nanoseconds

def ofMillis (n : Count) : Duration := n.toNat * perMilli

def seconds (d : Duration) : Nat := d / perSecond

/-- The nanoseconds of a duration beyond its whole seconds. -/
def subsecond (d : Duration) : Nat := d % perSecond

/-- The milliseconds of a duration, without the bits that do not fit a count. -/
def millis (d : Duration) : Count := UInt64.ofNat (d / perMilli)

end Duration

structure SteppedClock where
  nanoseconds : UInt64
  deriving DecidableEq, Repr

namespace SteppedClock

def atOrigin : SteppedClock := ⟨0⟩

def advance (c : SteppedClock) (d : Duration) : SteppedClock := ⟨c.nanoseconds + UInt64.ofNat d⟩

def set (_ : SteppedClock) (d : Duration) : SteppedClock := ⟨UInt64.ofNat d⟩

def now (c : SteppedClock) : Duration := c.nanoseconds.toNat

end SteppedClock

end ReadAhead
