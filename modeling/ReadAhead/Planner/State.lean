import ReadAhead.Planner.FrameWindow
import ReadAhead.Planner.Lookahead
import ReadAhead.Planner.Output
import ReadAhead.Planner.Pace
import ReadAhead.Planner.Tilt

/-!
  Planner — what to prefetch, and when to stop

  The planner takes in page changes, frame intervals and accelerations, and keeps
  five outputs up to date: the reading speed, the pages to prefetch, the
  sensitivity to swipes, whether the screen is under load, and the average frame
  interval.

  Under load nothing is prefetched. The load begins with an overload of the
  frame window. It ends only with a page change, and only if the cooldown has
  passed since the latest overload; neither frames nor tilt nor time alone end
  it. Measurements that are discarded change nothing at all.

  The planner has no clock. Whoever hands it an event says when that was, and
  only differences between these moments matter.

  The sums behind the reading speed can leave 64 bits. `Planner.step?` and `Planner.run?`
  come to nothing where they do; `Planner.apply` and `Planner.run` go on with sums that
  are natural numbers. What is proved of the latter is true of a planner as long as its
  sums fit, which `Proofs/Planner/Checked` states.

  Correspondence (operation ↔ definition):
    `track_page_change`      ↔ `Planner.showPage?`, without overflow `Planner.showPage`
    `update_frame_metrics`   ↔ `Planner.observeFrame`
    `on_sensor_changed`      ↔ `Planner.observeTilt`
    `reset`                  ↔ `Planner.reset`
    `refresh_targets`        ↔ `Planner.replan`
    `state.last_jank_at`     ↔ `Planner.lastOverload`
    the lock around a state  ↔ one `Planner.step?` for each call
-/

namespace ReadAhead

structure Planner (α : Type) where
  tuning : Tuning α
  pace : Pace α
  frames : FrameWindow α
  gravity : GravityFilter α
  /-- How far the device was tilted at the latest reading. -/
  intensity : α
  position : Option Position
  underLoad : Bool
  /-- When the latest overload was. -/
  lastOverload : Option Duration
  streams : PlannerStreams α

inductive PlannerEvent (α : Type) where
  /-- A page of a document of so many came to be shown. -/
  | page (page pageCount : Count)
  /-- A frame took so many milliseconds. -/
  | frame (interval : α)
  | tilt (acceleration : Axes α)
  /-- The document was closed. -/
  | reset

namespace Planner

variable {α : Type} [Quantity α]

def start (t : Tuning α) : Planner α where
  tuning := t
  pace := .initial
  frames := .empty
  gravity := .initial
  intensity := Quantity.ofNat 0
  position := none
  underLoad := false
  lastOverload := none
  streams := .ofOutput .baseline

def ofTuning (t : Tuning α) : Except SettingsError (Planner α) := start <$> t.validate

def output (p : Planner α) : PlannerOutput α := p.streams.latest

def replan (p : Planner α) : Planner α :=
  match p.position with
  | none => p
  | some position =>
    let pages := p.tuning.lookaheadPages position p.pace.pagesPerMinute p.intensity
    { p with streams := { p.streams with targets := p.streams.targets.publish pages } }

def isCooling (p : Planner α) (now : Duration) : Bool :=
  match p.lastOverload with
  | none => false
  | some moment => now - moment < p.tuning.cooldownTime

/-- Ends the load. The frame window starts over, so that a new overload takes a
new run of late frames. -/
def endLoad (p : Planner α) : Planner α :=
  { p with
    underLoad := false
    frames := .empty
    streams := { p.streams with underLoad := p.streams.underLoad.publish false } }

/-- Begins the load, or goes on with it: nothing is prefetched from here on. -/
def overload (p : Planner α) (now : Duration) : Planner α :=
  -- every overload restarts the cooldown, the first one and all later ones
  let p := { p with lastOverload := some now }
  if p.underLoad then p
  else
    { p with
      underLoad := true
      streams :=
        { p.streams with
          targets := p.streams.targets.publish []
          underLoad := p.streams.underLoad.publish true } }

def arrive (p : Planner α) (now : Duration) (position : Position) (pace : Pace α) : Planner α :=
  let p :=
    { p with
      position := some position
      pace := pace
      streams :=
        { p.streams with
          readingSpeed := p.streams.readingSpeed.publish pace.pagesPerMinute } }
  if p.underLoad then
    if p.isCooling now then p else p.endLoad.replan
  else p.replan

/-- Takes in that a page is shown. A page outside the document is ignored. -/
def showPage (p : Planner α) (now : Duration) (page pageCount : Count) : Planner α :=
  if pageCount ≤ page then p
  else p.arrive now ⟨page, pageCount⟩ (p.pace.observe p.tuning ⟨page, now⟩)

def showPage? (p : Planner α) (now : Duration) (page pageCount : Count) : Option (Planner α) :=
  if pageCount ≤ page then some p
  else (p.pace.accept? p.tuning ⟨page, now⟩).map (p.arrive now ⟨page, pageCount⟩)

def observeFrame (p : Planner α) (now : Duration) (interval : α) : Planner α :=
  let (load, frames) := p.frames.observe p.tuning interval
  let measured :=
    { p with
      frames := frames
      streams :=
        { p.streams with frameInterval := p.streams.frameInterval.publish frames.average } }
  match load with
  | .discarded => p
  | .smooth => measured
  | .overloaded => measured.overload now

def observeTilt (p : Planner α) (acceleration : Axes α) : Planner α :=
  match p.gravity.observe p.tuning acceleration with
  | none => p
  | some (tilt, gravity) =>
    let p :=
      { p with
        gravity := gravity
        intensity := tilt.intensity
        streams :=
          { p.streams with sensitivity := p.streams.sensitivity.publish tilt.sensitivity } }
    if p.underLoad then p else p.replan

/-- Goes back to the start; whoever watches the outputs sees them change back. -/
def reset (p : Planner α) : Planner α :=
  { start p.tuning with streams := p.streams.publish .baseline }

def apply (p : Planner α) (now : Duration) : PlannerEvent α → Planner α
  | .page page pageCount => p.showPage now page pageCount
  | .frame interval => p.observeFrame now interval
  | .tilt acceleration => p.observeTilt acceleration
  | .reset => p.reset

/-- Takes in an event, if the sums behind the pace fit. -/
def step? (p : Planner α) (now : Duration) : PlannerEvent α → Option (Planner α)
  | .page page pageCount => p.showPage? now page pageCount
  | .frame interval => some (p.observeFrame now interval)
  | .tilt acceleration => some (p.observeTilt acceleration)
  | .reset => some p.reset

def run (p : Planner α) (events : List (Duration × PlannerEvent α)) : Planner α :=
  events.foldl (fun p (now, event) => p.apply now event) p

def run? (p : Planner α) (events : List (Duration × PlannerEvent α)) : Option (Planner α) :=
  events.foldlM (fun p (now, event) => p.step? now event) p

/-- Whether an event keeps the sums of the estimates within 64 bits. -/
def fits (p : Planner α) (now : Duration) : PlannerEvent α → Bool
  | .page page pageCount => pageCount ≤ page || p.pace.fits p.tuning ⟨page, now⟩
  | _ => true

end Planner

end ReadAhead
