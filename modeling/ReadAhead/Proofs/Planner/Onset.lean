import Mathlib.Data.List.DropRight
import ReadAhead.Proofs.Planner.Load

/-!
  Onset of load — what it takes for the screen to come to be under load

  The planner keeps a bounded window of frame intervals and a count of late ones.
  Here the whole series is kept beside it: every interval that was accepted since
  the window last started over, however many there are (`TimedPlanner.series`).

  Runs in which a sum behind the reading speed leaves 64 bits are left out
  (`Proofs/Planner/Checked`).

  What is proved:
    1. `FrameWindow.Follows.push` — the window is the end of the series, and the
       count is the length of its longest end of late frames.
    2. `FrameWindow.Follows.isOverloaded_iff` — so the load is high exactly if the
       last few of the series are all late, and its average is.
    3. `load_begins` — a load begins exactly with such a frame, and with nothing
       else; frames that are discarded do not count either way.
    4. `load_begins_interrupted` (anti-vacuity) — a run of late frames with a
       discarded one in it begins a load, one with a quick one in it does not.
-/

namespace ReadAhead

variable {α : Type}

/-! ## Ends of series -/

theorem Window.push_rtake (capacity : Nat) (series : List α) (a : α) :
    push capacity (series.rtake capacity) a = (series ++ [a]).rtake capacity := by
  have start : series.length - capacity ≤ series.length := Nat.sub_le _ _
  rw [push_eq_drop, List.rtake, List.rtake, ← List.drop_append_of_le_length start,
    List.drop_drop, List.length_drop, List.length_append, List.length_singleton]
  congr 1
  omega

theorem le_length_rtakeWhile_iff (p : α → Bool) (series : List α) (n : Nat) :
    n ≤ (series.rtakeWhile p).length ↔ n ≤ series.length ∧ ∀ a ∈ series.rtake n, p a = true := by
  induction series using List.reverseRecOn generalizing n with
  | nil => simp [List.rtakeWhile_nil, List.rtake]
  | append_singleton series a ih =>
    cases n with
    | zero => simp [List.rtake_zero]
    | succ n =>
      rw [List.rtakeWhile_concat, List.rtake_concat_succ]
      cases late : p a with
      | true =>
        simp only [if_true, List.length_append, List.length_singleton, Nat.add_le_add_iff_right,
          ih n, List.forall_mem_append, List.forall_mem_singleton, late, and_true]
      | false => simp [late]

variable [Quantity α]

namespace FrameWindow

def mean (intervals : List α) : α :=
  Quantity.sum intervals / Quantity.ofNat intervals.length

/-- A window that keeps what matters of a series of intervals. -/
structure Follows (t : Tuning α) (series : List α) (w : FrameWindow α) : Prop where
  recent : w.intervals = series.rtake t.frameWindow.toNat
  late : w.lateRun = (series.rtakeWhile fun x => decide (t.lateFrame < x)).length

variable {t : Tuning α} {series : List α} {w : FrameWindow α}

theorem empty_follows (t : Tuning α) : (empty : FrameWindow α).Follows t [] where
  recent := by simp [empty, List.rtake]
  late := by simp [empty, List.rtakeWhile_nil]

theorem Follows.push (h : w.Follows t series) (interval : α) :
    (w.push t interval).Follows t (series ++ [interval]) where
  recent := by
    rw [← Window.push_rtake, ← h.recent]
    rfl
  late := by
    rw [List.rtakeWhile_concat, FrameWindow.push, h.late]
    by_cases late : t.lateFrame < interval <;> simp [late]

/-- The load is high exactly if the latest frames are late, as many as it takes,
and their average over the window is late. -/
theorem Follows.isOverloaded_iff (h : w.Follows t series) (room : t.frameWindow ≠ 0)
    (nonempty : series ≠ []) : w.isOverloaded t = true ↔
      (t.lateRun.toNat ≤ series.length ∧ ∀ x ∈ series.rtake t.lateRun.toNat, t.lateFrame < x) ∧
      t.lateFrame < mean (series.rtake (min t.frameWindow.toNat series.length)) := by
  have whole : series.rtake (min t.frameWindow.toNat series.length) = w.intervals := by
    rw [h.recent, List.rtake, List.rtake]
    congr 1
    omega
  have filled : w.intervals.isEmpty = false := by
    have size : 0 < series.length := List.length_pos_iff.mpr nonempty
    have capacity : 0 < t.frameWindow.toNat :=
      Nat.pos_of_ne_zero fun zero => room (UInt64.toNat_inj.mp zero)
    rw [List.isEmpty_eq_false_iff, ← List.length_pos_iff, h.recent, List.rtake, List.length_drop]
    omega
  have average : w.average = mean w.intervals := by
    rw [FrameWindow.average, filled]
    rfl
  have run := le_length_rtakeWhile_iff (fun x => decide (t.lateFrame < x)) series t.lateRun.toNat
  simp only [decide_eq_true_eq] at run
  rw [whole, ← run, ← h.late, ← average, isOverloaded, Bool.and_eq_true, decide_eq_true_eq,
    decide_eq_true_eq, and_comm]

theorem isMeasurement_iff (t : Tuning α) (interval : α) :
    isMeasurement t interval = true ↔
      Quantity.isFinite interval ∧ Quantity.ofNat 0 < interval ∧ interval ≤ t.longestFrame := by
  simp [isMeasurement, Quantity.isPositive, and_assoc]

theorem observe_eq_overloaded_iff (t : Tuning α) (w : FrameWindow α) (interval : α) :
    (w.observe t interval).1 = .overloaded ↔
      isMeasurement t interval = true ∧ (w.push t interval).isOverloaded t = true := by
  unfold observe
  cases isMeasurement t interval with
  | false => simp
  | true => cases judged : (w.push t interval).isOverloaded t <;> simp [judged]

end FrameWindow

/-! ## What each event does to the frame window -/

namespace Planner

omit [Quantity α] in
theorem frames_overload (p : Planner α) (now : Duration) : (p.overload now).frames = p.frames := by
  unfold overload
  dsimp only
  split <;> rfl

theorem frames_observeFrame (p : Planner α) (now : Duration) (interval : α) :
    (p.observeFrame now interval).frames = (p.frames.observe p.tuning interval).2 := by
  cases measured : FrameWindow.isMeasurement p.tuning interval with
  | false => simp [observeFrame, FrameWindow.observe, measured]
  | true =>
    cases judged : (p.frames.push p.tuning interval).isOverloaded p.tuning with
    | false => simp [observeFrame, FrameWindow.observe, measured, judged]
    | true => simp [observeFrame, FrameWindow.observe, measured, judged, frames_overload]

theorem frames_showPage (p : Planner α) (now : Duration) (page pageCount : Count) :
    (p.showPage now page pageCount).frames
      = if p.underLoad && !(p.showPage now page pageCount).underLoad then .empty else p.frames := by
  rcases p.showPage_cases now page pageCount with
    ⟨_, eq⟩ | ⟨_, calm, eq⟩ | ⟨_, _, _, eq⟩ | ⟨_, loaded, _, eq⟩
  · rw [eq]
    simp
  · rw [eq, replan_frame, calm]
    rfl
  · rw [eq]
    simp [turn]
  · rw [eq, replan_frame, loaded]
    rfl

theorem frames_observeTilt (p : Planner α) (acceleration : Axes α) :
    (p.observeTilt acceleration).frames = p.frames := by
  obtain ⟨_, _, _, _, eq, _⟩ := p.observeTilt_frame acceleration
  rw [eq]

end Planner

/-! ## The series that the window follows -/

namespace TimedPlanner

/-- The series after a move, given the one before: an accepted frame joins it, and
a reset or a page that ends a load starts it over. -/
def hear (t : Tuning α) (s : TimedPlanner α) (series : List α) : PlannerMove α → List α
  | .event (.frame interval) =>
    if Quantity.isFinite interval ∧ Quantity.ofNat 0 < interval ∧ interval ≤ t.longestFrame then
      series ++ [interval]
    else series
  | .event (.page page pageCount) =>
    let next := s.step (.event (.page page pageCount))
    if s.planner.output.underLoad ∧ ¬ next.planner.output.underLoad then [] else series
  | .event .reset => []
  | .event (.tilt _) => series
  | .clock _ => series

def hearAll (t : Tuning α) (s : TimedPlanner α) (series : List α) : List (PlannerMove α) → List α
  | [] => series
  | move :: moves => hearAll t (s.step move) (s.hear t series move) moves

/-- The frames accepted in a run since the frame window last started over, oldest
first. -/
def series (t : Tuning α) (clock : Duration) (moves : List (PlannerMove α)) : List α :=
  hearAll t (start t clock) [] moves

variable {t : Tuning α} {s : TimedPlanner α} {heard : List α}

theorem step_follows (watched : s.planner.Watched t s.latest)
    (h : s.planner.frames.Follows t heard) (move : PlannerMove α) :
    (s.step move).planner.frames.Follows t (s.hear t heard move) := by
  cases move with
  | clock reading => exact h
  | event event =>
    cases event with
    | page page pageCount =>
      have next := (watched.showPage s.clock page pageCount).shown
      show (s.planner.showPage s.clock page pageCount).frames.Follows t
        (if s.planner.streams.underLoad.value ∧
          ¬ (s.planner.showPage s.clock page pageCount).streams.underLoad.value
        then [] else heard)
      rw [Planner.frames_showPage, next, watched.shown]
      by_cases ends : s.planner.underLoad = true ∧
          ¬ (s.planner.showPage s.clock page pageCount).underLoad = true
      · rw [if_pos ends, if_pos (by simpa using ends)]
        exact FrameWindow.empty_follows t
      · rw [if_neg ends, if_neg (by simpa using ends)]
        exact h
    | frame interval =>
      show (s.planner.observeFrame s.clock interval).frames.Follows t
        (if _ then heard ++ [interval] else heard)
      rw [Planner.frames_observeFrame, watched.tuned, FrameWindow.observe]
      simp only [← FrameWindow.isMeasurement_iff]
      split
      · exact h.push interval
      · exact h
    | tilt acceleration =>
      show (s.planner.observeTilt acceleration).frames.Follows t heard
      rw [Planner.frames_observeTilt]
      exact h
    | reset => exact FrameWindow.empty_follows t

theorem run_follows (t : Tuning α) (clock : Duration) (moves : List (PlannerMove α)) :
    ((start t clock).run moves).planner.frames.Follows t (series t clock moves) := by
  have steps : ∀ (s : TimedPlanner α) (heard : List α), s.planner.Watched t s.latest →
      s.planner.frames.Follows t heard →
      (s.run moves).planner.frames.Follows t (hearAll t s heard moves) := by
    unfold run
    induction moves with
    | nil => exact fun s heard _ h => h
    | cons move moves ih =>
      intro s heard watched h
      exact ih (s.step move) _ (step_watched watched move) (step_follows watched h move)
  exact steps _ [] (Planner.start_watched t) (FrameWindow.empty_follows t)

/-- **A load begins with enough late frames, and with nothing else.** After any
moves, without a load: a move begins one exactly if it is a frame that is finite,
above zero and not above the longest plausible one, and with it in the series the
latest frames are late, as many as it takes, and so is the average over the frame
window. -/
theorem load_begins (t : Tuning α) (usable : t.validate = .ok t) (clock : Duration)
    (moves : List (PlannerMove α)) :
    let s : TimedPlanner α := (start t clock).run moves
    s.planner.output.underLoad = false →
      ∀ move, (s.step move).planner.output.underLoad = true ↔
        ∃ interval, move = .event (.frame interval) ∧
          (Quantity.isFinite interval ∧ Quantity.ofNat 0 < interval ∧
            interval ≤ t.longestFrame) ∧
          let all := series t clock moves ++ [interval]
          (t.lateRun.toNat ≤ all.length ∧ ∀ x ∈ all.rtake t.lateRun.toNat, t.lateFrame < x) ∧
          t.lateFrame < FrameWindow.mean (all.rtake (min t.frameWindow.toNat all.length)) := by
  intro s shown move
  have watched : s.planner.Watched t s.latest := run_watched t clock moves
  have follows := run_follows t clock moves
  have room : t.frameWindow ≠ 0 := by
    have rule := Tuning.rule_of_validate usable (.head _)
    exact bne_iff_ne.mp rule
  have calm : s.planner.underLoad = false := watched.shown.symm.trans shown
  have next : (s.step move).planner.output.underLoad = (s.step move).planner.underLoad :=
    (step_watched watched move).shown
  rw [next]
  cases move with
  | clock reading => simp [step, calm]
  | event event =>
    show (s.planner.apply s.clock event).underLoad = true ↔ _
    rw [Planner.underLoad_apply, calm]
    cases event with
    | page page pageCount => simp
    | frame interval =>
      have judged : s.planner.isOverload (.frame interval) = true ↔
          (s.planner.frames.observe t interval).1 = .overloaded := by
        rw [Planner.isOverload, watched.tuned, beq_iff_eq]
      have enough := (follows.push interval).isOverloaded_iff room (by simp)
      show (false || s.planner.isOverload (.frame interval)) = true ↔ _
      rw [Bool.false_or, judged, FrameWindow.observe_eq_overloaded_iff,
        FrameWindow.isMeasurement_iff, enough]
      constructor
      · exact fun late => ⟨interval, rfl, late⟩
      · rintro ⟨_, same, late⟩
        cases same
        exact late
    | tilt acceleration => simp
    | reset => simp

/-- Four late frames, one that is no number, and perhaps a quick one. -/
def falter (quick : List Float) : List (PlannerMove Float) :=
  (List.replicate 4 40.0 ++ [0.0 / 0.0] ++ quick).map fun x => .event (.frame x)

/-- **Not vacuous**: a fifth late frame begins a load over the one that is no
number, but not after the quick one. -/
theorem load_begins_interrupted :
    (((start .standard 0).run (falter [])).step
      (.event (.frame 40.0))).planner.output.underLoad = true ∧
    (((start .standard 0).run (falter [16.0])).step
      (.event (.frame 40.0))).planner.output.underLoad = false := by
  have usable : (Tuning.standard : Tuning Float).validate = .ok .standard := by
    have rules : (Tuning.standard : Tuning Float).fault? = none := by decide +kernel
    rw [Tuning.validate, rules]
  have calm : ((start .standard 0).run (falter [])).planner.output.underLoad = false := by
    decide +kernel
  have calm' : ((start .standard 0).run (falter [16.0])).planner.output.underLoad = false := by
    decide +kernel
  have begins := load_begins .standard usable 0 (falter []) calm (.event (.frame 40.0))
  have begins' := load_begins .standard usable 0 (falter [16.0]) calm' (.event (.frame 40.0))
  constructor
  · rw [begins]
    exact ⟨40.0, rfl, by decide +kernel, by decide +kernel⟩
  · rw [← Bool.not_eq_true, begins']
    rintro ⟨_, same, _, ⟨_, late⟩, _⟩
    cases same
    revert late
    decide +kernel

end TimedPlanner

end ReadAhead
