import ReadAhead.Planner.Time
import ReadAhead.Numeric.Quantity
import ReadAhead.Settings.Error

/-!
  Tuning — the thresholds and weights of the planner

  All that the planner compares with or multiplies by is here. A tuning is
  usable if it breaks none of the rules in `Tuning.rules`; the first rule that
  it breaks, in their order, names the setting at fault.

  Correspondence (operation ↔ definition):
    `FlowConfig`             ↔ `Tuning`
    `validate`               ↔ `Tuning.validate`, by `Tuning.rules`
    `cooldown`, `idle_reset` ↔ `Tuning.cooldownTime`, `Tuning.idleTime`
-/

namespace ReadAhead

structure Tuning (α : Type) where
  /-- How many frame intervals are averaged. -/
  frameWindow : Count
  /-- The interval in milliseconds above which a frame is late. -/
  lateFrame : α
  /-- How many frames in a row must be late before the load counts as high. -/
  lateRun : Count
  /-- The interval in milliseconds above which a measurement is discarded. -/
  longestFrame : α
  /-- The milliseconds after the last overload before pages are prefetched again. -/
  cooldown : Count
  /-- Over how many page turns the reading speed is measured. -/
  speedWindow : Count
  /-- The weight of the newest measurement in the reading speed. -/
  speedWeight : α
  /-- The milliseconds between page turns from which reading has been
  interrupted. -/
  idleReset : Count
  /-- The most pages that a turn may span and still be reading. -/
  longestTurn : Count
  leastPreload : Count
  mostPreload : Count
  /-- How many pages per minute earn one more page. -/
  speedPerPage : α
  /-- The weight of the newest measurement in the direction of gravity. -/
  tiltWeight : α
  /-- The pitch in degrees at which a device is held for reading. -/
  neutralPitch : α
  /-- The deviation in degrees up to which tilt is ignored. -/
  deadZone : α
  /-- The deviation in degrees from which tilt is full. -/
  fullTilt : α
  fullSensitivity : α
  /-- How many more pages are prefetched at full tilt. -/
  tiltPages : Count
  deriving BEq

namespace Tuning

variable {α : Type} [Quantity α]

/-- The time for a frame in milliseconds at sixty frames per second. -/
def frameBudget : α := Quantity.ofNat 1000 / Quantity.ofNat 60

/-- The tuning that holds where nothing is said. A frame is late that takes more
than one and a half of its time. -/
def standard : Tuning α where
  frameWindow := 10
  lateFrame := frameBudget * (Quantity.ofNat 3 / Quantity.ofNat 2)
  lateRun := 5
  longestFrame := Quantity.ofNat 1000
  cooldown := 2000
  speedWindow := 5
  speedWeight := Quantity.ofNat 1 / Quantity.ofNat 2
  idleReset := 30000
  longestTurn := 10
  leastPreload := 1
  mostPreload := 8
  speedPerPage := Quantity.ofNat 10
  tiltWeight := Quantity.ofNat 1 / Quantity.ofNat 5
  neutralPitch := Quantity.ofNat 40
  deadZone := Quantity.ofNat 10
  fullTilt := Quantity.ofNat 45
  fullSensitivity := Quantity.ofNat 2
  tiltPages := 2

/-- What makes a tuning usable: each rule with the setting that it is about. -/
def rules : List (String × (Tuning α → Bool)) :=
  [ ("frame_window", fun t => t.frameWindow != 0),
    ("jank_threshold_ms", fun t => Quantity.isPositive t.lateFrame),
    ("min_consecutive_jank_samples", fun t => t.lateRun != 0),
    ("max_plausible_frame_ms", fun t =>
      Quantity.isPositive t.longestFrame && !decide (t.longestFrame ≤ t.lateFrame)),
    ("speed_window", fun t => t.speedWindow != 0),
    ("speed_smoothing", fun t => Quantity.isWeight t.speedWeight),
    ("min_preload_pages", fun t => t.leastPreload ≤ t.mostPreload),
    ("tilt_extra_pages", fun t => t.tiltPages ≤ t.mostPreload),
    ("pages_per_minute_per_extra_page", fun t => Quantity.isPositive t.speedPerPage),
    ("tilt_smoothing", fun t => Quantity.isWeight t.tiltWeight),
    ("neutral_pitch_degrees", fun t =>
      Quantity.isFinite t.neutralPitch &&
        !decide (Quantity.ofNat 90 < Quantity.abs t.neutralPitch)),
    ("tilt_dead_zone_degrees", fun t =>
      Quantity.isFinite t.deadZone && !decide (t.deadZone < Quantity.ofNat 0)),
    ("max_tilt_degrees", fun t =>
      Quantity.isFinite t.fullTilt && !decide (t.fullTilt ≤ t.deadZone)),
    ("max_swipe_sensitivity", fun t =>
      Quantity.isFinite t.fullSensitivity && !decide (t.fullSensitivity < Quantity.ofNat 1)) ]

def fault? (t : Tuning α) : Option String :=
  (rules.find? fun rule => !rule.2 t).map (·.1)

def validate (t : Tuning α) : Except SettingsError (Tuning α) :=
  match t.fault? with
  | none => .ok t
  | some key => .error (.invalidValue key)

theorem rule_of_validate {t u : Tuning α} (accepted : t.validate = .ok u)
    {rule : String × (Tuning α → Bool)} (listed : rule ∈ rules) : rule.2 t = true := by
  cases broken : rule.2 t with
  | true => rfl
  | false =>
    have found : (rules.find? fun rule => !rule.2 t).isSome = true :=
      List.find?_isSome.mpr ⟨rule, listed, by simp [broken]⟩
    obtain ⟨first, hfirst⟩ := Option.isSome_iff_exists.mp found
    simp [validate, fault?, hfirst] at accepted

def withLateness (t : Tuning α) (threshold : α) (run : Count) : Tuning α :=
  { t with lateFrame := threshold, lateRun := run }

def withCooldown (t : Tuning α) (d : Duration) : Tuning α := { t with cooldown := d.millis }

def withPreload (t : Tuning α) (least most : Count) : Tuning α :=
  { t with leastPreload := least, mostPreload := most }

/-- How long after the last overload pages are prefetched again. -/
def cooldownTime (t : Tuning α) : Duration := .ofMillis t.cooldown

/-- How long a pause between page turns interrupts reading. -/
def idleTime (t : Tuning α) : Duration := .ofMillis t.idleReset

end Tuning

end ReadAhead
