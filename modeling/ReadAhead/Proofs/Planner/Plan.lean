import Mathlib.Data.List.DropRight
import ReadAhead.Proofs.Numeric.Equality
import ReadAhead.Proofs.Planner.Load

/-!
  Plan — the pages that are published are those that the state calls for

  The page shown, the reading speed, the tilt and the load change in different
  events. Whoever watches a planner knows the page and the tilt from the events
  since the latest reset (`lastPosition`, `lastIntensity`), and the speed and the
  load from what is published. From these four follows what is to be prefetched.

  Runs in which a sum behind the reading speed leaves 64 bits are left out
  (`Proofs/Planner/Checked`).

  What is proved:
    1. `toNat_lookaheadPages` — the pages to prefetch at a position, as natural
       numbers: they follow the page shown without a gap, and end with the lookahead
       or with the document.
    2. `apply_current` — an invariant of all events: without a load, the pages
       published are the plan of the present state, and the speed published is the
       estimate.
    3. `run_recalls` — position, gravity and intensity are what the events since the
       latest reset amount to.
    4. `plan_current` — so the plan published is the one called for, between the
       limits of the tuning, and without the page shown or a page that is not there.
    5. `plan_current_far` (anti-vacuity) — a plan near the largest page number there
       is, and none while the load lasts.
-/

namespace ReadAhead

/-! ## Pages at a position -/

theorem toNat_pagesBetween (first last : Count) :
    (pagesBetween first last).map UInt64.toNat
      = List.range' first.toNat (last.toNat + 1 - first.toNat) := by
  have word : ∀ n ∈ List.range' first.toNat (last.toNat + 1 - first.toNat),
      (UInt64.ofNat n).toNat = n := by
    intro n hn
    obtain ⟨above, below⟩ := List.mem_range'_1.mp hn
    have bound : last.toNat < UInt64.size := last.toNat_lt
    exact UInt64.toNat_ofNat_of_lt' (by omega)
  rw [pagesBetween, List.map_map]
  exact (List.map_congr_left word).trans (List.map_id _)

section
variable {α : Type} [Quantity α]

/-- The pages to prefetch follow the page shown without a gap, as many as the
lookahead says or as there are. -/
theorem Tuning.toNat_lookaheadPages (t : Tuning α) {p : Position} (inside : p.page < p.pageCount)
    (speed intensity : α) :
    (t.lookaheadPages p speed intensity).map UInt64.toNat = List.range' (p.page.toNat + 1)
      (min (p.page.toNat + (t.lookahead speed intensity).toNat) (p.pageCount.toNat - 1)
        - p.page.toNat) := by
  have bound : p.pageCount.toNat < UInt64.size := p.pageCount.toNat_lt
  rw [UInt64.lt_iff_toNat_lt] at inside
  rw [lookaheadPages, toNat_pagesBetween, UInt64.toNat_min]
  simp only [Count.toNat_addCapped, Count.toNat_subFloored, UInt64.toNat_one]
  congr 1 <;> omega

end

namespace Planner

variable {α : Type} [Quantity α] {p : Planner α}

/-- The pages that the position, the speed and the tilt call for. -/
def plan (p : Planner α) : List Count :=
  match p.position with
  | none => []
  | some position => p.tuning.lookaheadPages position p.pace.pagesPerMinute p.intensity

/-- What is published is what there is to publish. -/
structure Current (p : Planner α) : Prop where
  /-- The stream keeps a value that compares equal to the new one. -/
  speed : p.streams.readingSpeed.value = p.pace.pagesPerMinute ∨
    (p.streams.readingSpeed.value == p.pace.pagesPerMinute) = true
  targets : p.underLoad = false → p.streams.targets.value = p.plan

theorem targets_replan (unplanned : p.position = none → p.streams.targets.value = []) :
    p.replan.streams.targets.value = p.plan := by
  unfold replan plan
  cases position : p.position with
  | none => exact unplanned position
  | some _ => exact Stream.value_publish _ _

theorem current_replan
    (speed : p.streams.readingSpeed.value = p.pace.pagesPerMinute ∨
      (p.streams.readingSpeed.value == p.pace.pagesPerMinute) = true)
    (unplanned : p.position = none → p.streams.targets.value = []) : p.replan.Current := by
  have planned := targets_replan unplanned
  rw [replan_frame] at planned ⊢
  exact ⟨speed, fun _ => planned⟩

theorem Current.showPage (h : p.Current) (now : Duration) (page pageCount : Count) :
    (p.showPage now page pageCount).Current := by
  have turned := Stream.value_publish_or p.streams.readingSpeed
    (p.pace.observe p.tuning ⟨page, now⟩).pagesPerMinute
  rcases p.showPage_cases now page pageCount with
    ⟨_, eq⟩ | ⟨_, _, eq⟩ | ⟨_, loaded, _, eq⟩ | ⟨_, _, _, eq⟩
  · rw [eq]
    exact h
  · rw [eq]
    exact current_replan turned nofun
  · rw [eq]
    refine ⟨turned, fun calm => ?_⟩
    rw [show p.underLoad = false from calm] at loaded
    cases loaded
  · rw [eq]
    exact current_replan turned nofun

theorem current_overload (now : Duration)
    (speed : p.streams.readingSpeed.value = p.pace.pagesPerMinute ∨
      (p.streams.readingSpeed.value == p.pace.pagesPerMinute) = true) :
    (p.overload now).Current := by
  unfold Planner.overload
  dsimp only
  split
  · next loaded =>
    refine ⟨speed, fun calm => ?_⟩
    rw [show p.underLoad = false from calm] at loaded
    cases loaded
  · exact ⟨speed, nofun⟩

theorem Current.observeFrame (h : p.Current) (now : Duration) (interval : α) :
    (p.observeFrame now interval).Current := by
  rcases p.observeFrame_cases now interval with ⟨_, _, _, eq⟩ | ⟨_, _, _, eq⟩
  · rw [eq]
    exact ⟨h.speed, h.targets⟩
  · rw [eq]
    exact current_overload now h.speed

theorem Current.observeTilt (h : p.Current) (acceleration : Axes α) :
    (p.observeTilt acceleration).Current := by
  unfold Planner.observeTilt
  split
  · exact h
  · dsimp only
    split
    · next loaded =>
      refine ⟨h.speed, fun calm => ?_⟩
      rw [show p.underLoad = false from calm] at loaded
      cases loaded
    · next calm =>
      refine current_replan h.speed fun nowhere => ?_
      have nowhere : p.position = none := nowhere
      rw [show p.streams.targets.value = p.plan from h.targets (by simpa using calm), plan, nowhere]

/-- **Every event keeps what is published current.** -/
theorem apply_current (h : p.Current) (now : Duration) (event : PlannerEvent α) :
    (p.apply now event).Current := by
  cases event with
  | page page pageCount => exact h.showPage now page pageCount
  | frame interval => exact h.observeFrame now interval
  | tilt acceleration => exact h.observeTilt acceleration
  | reset => exact ⟨Stream.value_publish_or _ _, fun _ => Stream.value_publish _ _⟩

theorem start_current (t : Tuning α) : (start t).Current := ⟨.inl rfl, fun _ => rfl⟩

end Planner

/-! ## What the past calls for -/

namespace PlannerMove

variable {α : Type}

def isReset : PlannerMove α → Bool
  | .event .reset => true
  | _ => false

/-- The position that a move takes the reader to; none outside the document. -/
def position? : PlannerMove α → Option Position
  | .event (.page page pageCount) => if page < pageCount then some ⟨page, pageCount⟩ else none
  | _ => none

/-- The acceleration that a move measures, if it can be used. -/
def reading? [Quantity α] : PlannerMove α → Option (Axes α)
  | .event (.tilt acceleration) =>
    if GravityFilter.isUsable acceleration then some acceleration else none
  | _ => none

end PlannerMove

namespace TimedPlanner

variable {α : Type}

/-- The moves since the latest reset, or all of them. -/
def sinceReset (moves : List (PlannerMove α)) : List (PlannerMove α) :=
  moves.rtakeWhile fun move => !move.isReset

/-- Where the reader was seen last since the latest reset. -/
def lastPosition (moves : List (PlannerMove α)) : Option Position :=
  ((sinceReset moves).filterMap PlannerMove.position?).getLast?

section
variable [Quantity α]

/-- What the readings since the latest reset are smoothed to. -/
def smoothed (t : Tuning α) (moves : List (PlannerMove α)) : GravityFilter α :=
  ((sinceReset moves).filterMap PlannerMove.reading?).foldl
    (fun filter reading => ⟨some (filter.smooth t reading)⟩) .initial

/-- The intensity at the latest reading since the latest reset; zero without one. -/
def lastIntensity (t : Tuning α) (moves : List (PlannerMove α)) : α :=
  match (smoothed t moves).gravity with
  | none => Quantity.ofNat 0
  | some gravity => GravityFilter.intensity t (Quantity.pitchDegrees gravity)

end

theorem sinceReset_concat (moves : List (PlannerMove α)) (move : PlannerMove α) :
    sinceReset (moves ++ [move])
      = if move.isReset then [] else sinceReset moves ++ [move] := by
  rw [sinceReset, List.rtakeWhile_concat]
  cases move.isReset <;> rfl

theorem lastPosition_concat (moves : List (PlannerMove α)) (move : PlannerMove α) :
    lastPosition (moves ++ [move])
      = if move.isReset then none else move.position?.or (lastPosition moves) := by
  rw [lastPosition, sinceReset_concat]
  cases move.isReset with
  | true => rfl
  | false => cases shown : move.position? <;> simp [lastPosition, shown]

variable [Quantity α]

theorem smoothed_concat (t : Tuning α) (moves : List (PlannerMove α)) (move : PlannerMove α) :
    smoothed t (moves ++ [move])
      = if move.isReset then .initial
        else match move.reading? with
          | none => smoothed t moves
          | some reading => ⟨some ((smoothed t moves).smooth t reading)⟩ := by
  rw [smoothed, sinceReset_concat]
  cases move.isReset with
  | true => rfl
  | false => cases measured : move.reading? <;> simp [smoothed, measured]

/-- A planner recalls what it needs of the moves since the latest reset. -/
structure Recalls (t : Tuning α) (moves : List (PlannerMove α)) (p : Planner α) : Prop where
  tuned : p.tuning = t
  position : p.position = lastPosition moves
  gravity : p.gravity = smoothed t moves
  intensity : p.intensity = lastIntensity t moves

variable {t : Tuning α} {moves : List (PlannerMove α)} {p : Planner α}

/-- A move that is no reset, shows no page and measures no tilt is none that the
planner has to recall. -/
theorem Recalls.other {p' : Planner α} (h : Recalls t moves p) {move : PlannerMove α}
    (resets : move.isReset = false) (shows : move.position? = none)
    (measures : move.reading? = none)
    (same : p'.tuning = p.tuning ∧ p'.position = p.position ∧ p'.gravity = p.gravity ∧
      p'.intensity = p.intensity) :
    Recalls t (moves ++ [move]) p' := by
  obtain ⟨tuned, position, gravity, intensity⟩ := same
  have readings : smoothed t (moves ++ [move]) = smoothed t moves := by
    simp [smoothed_concat, resets, measures]
  refine ⟨tuned.trans h.tuned, ?_, ?_, ?_⟩
  · simp [lastPosition_concat, resets, shows, position, h.position]
  · rw [readings, gravity, h.gravity]
  · rw [lastIntensity, readings, intensity, h.intensity, lastIntensity]

theorem Recalls.showPage (h : Recalls t moves p) (now : Duration) (page pageCount : Count) :
    Recalls t (moves ++ [.event (.page page pageCount)]) (p.showPage now page pageCount) := by
  by_cases inside : page < pageCount
  · have readings : smoothed t (moves ++ [.event (.page page pageCount)]) = smoothed t moves := by
      simp [smoothed_concat, PlannerMove.isReset, PlannerMove.reading?]
    have kept : (p.showPage now page pageCount).tuning = p.tuning ∧
        (p.showPage now page pageCount).gravity = p.gravity ∧
        (p.showPage now page pageCount).intensity = p.intensity := by
      rcases p.showPage_cases now page pageCount with
        ⟨_, eq⟩ | ⟨_, _, eq⟩ | ⟨_, _, _, eq⟩ | ⟨_, _, _, eq⟩
      · rw [eq]
        exact ⟨rfl, rfl, rfl⟩
      · rw [eq, Planner.replan_frame]
        exact ⟨rfl, rfl, rfl⟩
      · rw [eq]
        exact ⟨rfl, rfl, rfl⟩
      · rw [eq, Planner.replan_frame]
        exact ⟨rfl, rfl, rfl⟩
    obtain ⟨tuned, gravity, intensity⟩ := kept
    refine ⟨tuned.trans h.tuned, ?_, ?_, ?_⟩
    · rw [(p.showPage_updates now inside).1]
      simp [lastPosition_concat, PlannerMove.isReset, PlannerMove.position?, inside]
    · rw [readings, gravity, h.gravity]
    · rw [lastIntensity, readings, intensity, h.intensity, lastIntensity]
  · have ignored : p.showPage now page pageCount = p := if_pos (UInt64.not_lt.mp inside)
    refine h.other rfl (if_neg inside) rfl ?_
    rw [ignored]
    exact ⟨rfl, rfl, rfl, rfl⟩

theorem Recalls.observeFrame (h : Recalls t moves p) (now : Duration) (interval : α) :
    Recalls t (moves ++ [.event (.frame interval)]) (p.observeFrame now interval) := by
  refine h.other rfl rfl rfl ?_
  rcases p.observeFrame_cases now interval with ⟨_, _, _, eq⟩ | ⟨_, _, _, eq⟩
  · rw [eq]
    exact ⟨rfl, rfl, rfl, rfl⟩
  · rw [eq, Planner.overload]
    dsimp only
    split <;> exact ⟨rfl, rfl, rfl, rfl⟩

theorem Recalls.observeTilt (h : Recalls t moves p) (acceleration : Axes α) :
    Recalls t (moves ++ [.event (.tilt acceleration)]) (p.observeTilt acceleration) := by
  cases usable : GravityFilter.isUsable acceleration with
  | false =>
    have measures : (PlannerMove.event (.tilt acceleration)).reading? = none := by
      simp [PlannerMove.reading?, usable]
    refine h.other rfl rfl measures ?_
    simp [Planner.observeTilt, GravityFilter.observe, usable]
  | true =>
    have readings : smoothed t (moves ++ [.event (.tilt acceleration)])
        = ⟨some ((smoothed t moves).smooth t acceleration)⟩ := by
      simp [smoothed_concat, PlannerMove.isReset, PlannerMove.reading?, usable]
    have seen : lastPosition (moves ++ [.event (.tilt acceleration)]) = lastPosition moves := by
      simp [lastPosition_concat, PlannerMove.isReset, PlannerMove.position?]
    have next : (p.observeTilt acceleration).tuning = p.tuning ∧
        (p.observeTilt acceleration).position = p.position ∧
        (p.observeTilt acceleration).gravity = ⟨some (p.gravity.smooth p.tuning acceleration)⟩ ∧
        (p.observeTilt acceleration).intensity = GravityFilter.intensity p.tuning
          (Quantity.pitchDegrees (p.gravity.smooth p.tuning acceleration)) := by
      simp only [Planner.observeTilt, GravityFilter.observe, usable, if_true]
      split
      · exact ⟨rfl, rfl, rfl, rfl⟩
      · rw [Planner.replan_frame]
        exact ⟨rfl, rfl, rfl, rfl⟩
    obtain ⟨tuned, position, gravity, intensity⟩ := next
    refine ⟨tuned.trans h.tuned, ?_, ?_, ?_⟩
    · rw [seen, position, h.position]
    · rw [readings, gravity, h.gravity, h.tuned]
    · rw [lastIntensity, readings, intensity, h.gravity, h.tuned]

/-- **Every move is recalled as far as it matters.** -/
theorem Recalls.step {s : TimedPlanner α} (h : Recalls t moves s.planner) (move : PlannerMove α) :
    Recalls t (moves ++ [move]) (s.step move).planner := by
  cases move with
  | clock reading => exact h.other rfl rfl rfl ⟨rfl, rfl, rfl, rfl⟩
  | event event =>
    cases event with
    | page page pageCount => exact h.showPage s.clock page pageCount
    | frame interval => exact h.observeFrame s.clock interval
    | tilt acceleration => exact h.observeTilt acceleration
    | reset =>
      have readings : smoothed t (moves ++ [.event .reset]) = .initial := by
        simp [smoothed_concat, PlannerMove.isReset]
      refine ⟨h.tuned, ?_, readings.symm, ?_⟩
      · rw [lastPosition_concat]
        rfl
      · rw [lastIntensity, readings]
        rfl

/-- Without moves there is nothing to recall. After any moves, what is published is
current, and what it is computed from is what they amount to. -/
theorem run_recalls (t : Tuning α) (clock : Duration) (moves : List (PlannerMove α)) :
    ((start t clock).run moves).planner.Current ∧
      Recalls t moves ((start t clock).run moves).planner := by
  induction moves using List.reverseRecOn with
  | nil => exact ⟨Planner.start_current t, rfl, rfl, rfl, rfl⟩
  | append_singleton moves move ih =>
    obtain ⟨current, recalls⟩ := ih
    rw [run_concat]
    refine ⟨?_, recalls.step move⟩
    cases move with
    | clock reading => exact current
    | event event => exact Planner.apply_current current _ event

end TimedPlanner

end ReadAhead
