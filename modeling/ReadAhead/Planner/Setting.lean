import ReadAhead.Planner.Tuning
import ReadAhead.Numeric.Binary64
import ReadAhead.Settings.Document
import ReadAhead.Settings.Environment

/-!
  Settings — the names under which a tuning is written

  Every part of a tuning has a key. A settings document binds keys; the
  environment sets a variable for a key by the key in capitals behind a common
  beginning. `Setting.all` lists the keys in order, with what each stands for;
  both ways of loading a tuning go through it.

  Whatever is loaded is usable in the end, or refused: with the first variable
  in order that does not read, or else with the first rule that is broken.

  Correspondence (operation ↔ definition):
    `apply_env`, `env_value` ↔ `Tuning.override`, `Setting.override`
    `from_toml`, `from_file` ↔ `Tuning.ofText`, `Tuning.ofFile`
-/

namespace ReadAhead

/-- The part of a tuning that a key stands for. -/
inductive Slot (α : Type) where
  | count (get : Tuning α → Count) (set : Count → Tuning α → Tuning α)
  | measure (get : Tuning α → α) (set : α → Tuning α → Tuning α)

structure Setting (α : Type) where
  key : String
  slot : Slot α

namespace Setting

variable {α : Type}

def all : List (Setting α) :=
  [ ⟨"frame_window", .count (·.frameWindow) fun n t => { t with frameWindow := n }⟩,
    ⟨"jank_threshold_ms", .measure (·.lateFrame) fun x t => { t with lateFrame := x }⟩,
    ⟨"min_consecutive_jank_samples", .count (·.lateRun) fun n t => { t with lateRun := n }⟩,
    ⟨"max_plausible_frame_ms", .measure (·.longestFrame) fun x t => { t with longestFrame := x }⟩,
    ⟨"cooldown_ms", .count (·.cooldown) fun n t => { t with cooldown := n }⟩,
    ⟨"speed_window", .count (·.speedWindow) fun n t => { t with speedWindow := n }⟩,
    ⟨"speed_smoothing", .measure (·.speedWeight) fun x t => { t with speedWeight := x }⟩,
    ⟨"idle_reset_ms", .count (·.idleReset) fun n t => { t with idleReset := n }⟩,
    ⟨"jump_threshold_pages", .count (·.longestTurn) fun n t => { t with longestTurn := n }⟩,
    ⟨"min_preload_pages", .count (·.leastPreload) fun n t => { t with leastPreload := n }⟩,
    ⟨"max_preload_pages", .count (·.mostPreload) fun n t => { t with mostPreload := n }⟩,
    ⟨"pages_per_minute_per_extra_page",
      .measure (·.speedPerPage) fun x t => { t with speedPerPage := x }⟩,
    ⟨"tilt_smoothing", .measure (·.tiltWeight) fun x t => { t with tiltWeight := x }⟩,
    ⟨"neutral_pitch_degrees", .measure (·.neutralPitch) fun x t => { t with neutralPitch := x }⟩,
    ⟨"tilt_dead_zone_degrees", .measure (·.deadZone) fun x t => { t with deadZone := x }⟩,
    ⟨"max_tilt_degrees", .measure (·.fullTilt) fun x t => { t with fullTilt := x }⟩,
    ⟨"max_swipe_sensitivity",
      .measure (·.fullSensitivity) fun x t => { t with fullSensitivity := x }⟩,
    ⟨"tilt_extra_pages", .count (·.tiltPages) fun n t => { t with tiltPages := n }⟩ ]

def find? (key : String) : Option (Setting α) := all.find? (·.key == key)

/-- What the names of all variables begin with. -/
def variableStem : String := "PAGEFLOW_FLOW_"

def variableName (s : Setting α) : String := variableStem ++ s.key.map Char.toUpper

/-- The tuning with one part taken from the environment, if its variable is
set. -/
def override (env : Environment) (t : Tuning Float) (s : Setting Float) :
    Except SettingsError (Tuning Float) :=
  match s.slot with
  | .count _ set => do return ((← env.read? Text.count? s.variableName).elim t (set · t))
  | .measure _ set => do return ((← env.read? Text.measure? s.variableName).elim t (set · t))

/-- The tuning with one part taken from a binding of a document. -/
def bind (t : Tuning Float) (binding : String × Settings.Literal) :
    Except SettingsError (Tuning Float) :=
  match find? binding.1 with
  | none => .error .malformed
  | some s =>
    let bound := match s.slot with
      | .count _ set => binding.2.count?.map (set · t)
      | .measure _ set => binding.2.measure?.map (set · t)
    match bound with
    | none => .error .malformed
    | some t => .ok t

end Setting

namespace Tuning

/-- The tuning with everything that the environment sets in place of its own. -/
def override (t : Tuning Float) (env : Environment) : Except SettingsError (Tuning Float) := do
  validate (← Setting.all.foldlM (Setting.override env) t)

/-- Reads a tuning from a settings document; what it does not bind is as in the
standard tuning. -/
def ofText (text : String) : Except SettingsError (Tuning Float) := do
  validate (← (← Settings.Document.read text).foldlM Setting.bind standard)

def ofFile (content : Option ByteArray) : Except SettingsError (Tuning Float) := do
  ofText (← Settings.Document.textOfFile content)

end Tuning

end ReadAhead
