import Mathlib.Data.List.Destutter
import Mathlib.Order.Bounds.Basic
import ReadAhead.Proofs.Planner.Onset
import ReadAhead.Proofs.Planner.Sums

/-!
  Speed windows — over which turns the reading speed is measured

  An estimator clears its window on long pauses and on jumps, drops pages that are shown
  again, and keeps only so many turns. Here the whole series of reports since the latest
  reset is kept beside it, without the pages that are shown again (`Pace.history`). Two
  neighbours in it are connected if reading went on between them.

  Runs in which a sum behind the reading speed leaves 64 bits are left out
  (`Proofs/Planner/Checked`).

  What is proved:
    1. `le_length_stretch_iff` — the longest end of a series in which all neighbours are
       related, found in one pass, is the longest.
    2. `Pace.Follows.observe`, `Pace.run_follows` — the window is the end of the longest
       connected end of the history, whatever is reported.
    3. `Pace.window_exact` — which turns these are, and what becomes of the estimate: it is
       zero behind a pause, stays as it was behind a jump and for a page shown again, and
       follows from the one before and the window otherwise.
    4. `Pace.window_exact_interrupted` (anti-vacuity) — a window that is shorter than the
       connected end, which a jump made shorter than the history.
    5. `Planner.run_pace` — the estimator of a planner takes in the pages of the documents
       and the resets, and nothing else.
-/

namespace ReadAhead

variable {α : Type}

/-! ## Ends of series -/

theorem rtake_rtake (series : List α) (m n : Nat) :
    (series.rtake m).rtake n = series.rtake (min n m) := by
  rw [List.rtake, List.rtake, List.rtake, List.drop_drop, List.length_drop]
  congr 1
  omega

theorem getLast?_rtake (series : List α) {n : Nat} (pos : 0 < n) :
    (series.rtake n).getLast? = series.getLast? := by
  cases n with
  | zero => cases pos
  | succ n =>
    cases series using List.reverseRecOn with
    | nil => rw [List.rtake_nil]
    | append_singleton series a =>
      rw [List.rtake_concat_succ, List.getLast?_concat, List.getLast?_concat]

section
variable (R : α → α → Prop) [DecidableRel R]

theorem destutter'_concat (first : α) (series : List α) (a : α) :
    (series ++ [a]).destutter' R first =
      if ∀ last ∈ (series.destutter' R first).getLast?, R last a then
        series.destutter' R first ++ [a]
      else series.destutter' R first := by
  induction series generalizing first with
  | nil => simp [List.destutter'_singleton]
  | cons b series ih =>
    rw [List.cons_append]
    by_cases related : R first b
    · obtain ⟨c, kept, eq⟩ :=
        List.exists_cons_of_ne_nil (List.destutter'_ne_nil series (R := R) (a := b))
      rw [List.destutter'_cons_pos _ related, List.destutter'_cons_pos _ related, ih, eq,
        List.getLast?_cons_cons]
      split <;> rfl
    · rw [List.destutter'_cons_neg _ related, List.destutter'_cons_neg _ related, ih]

/-- One more element is kept if it is related to the last one that was. -/
theorem destutter_concat (series : List α) (a : α) :
    (series ++ [a]).destutter R =
      if ∀ last ∈ (series.destutter R).getLast?, R last a then series.destutter R ++ [a]
      else series.destutter R := by
  cases series with
  | nil => simp
  | cons first series =>
    rw [List.cons_append, List.destutter_cons', List.destutter_cons', destutter'_concat]

/-- The longest end of a series in which every two neighbours are related. -/
def stretch (series : List α) : List α :=
  series.foldl (fun run a => if ∀ last ∈ run.getLast?, R last a then run ++ [a] else [a]) []

theorem stretch_concat (series : List α) (a : α) :
    stretch R (series ++ [a]) =
      if ∀ last ∈ (stretch R series).getLast?, R last a then stretch R series ++ [a]
      else [a] :=
  List.foldl_concat ..

theorem getLast?_stretch (series : List α) : (stretch R series).getLast? = series.getLast? := by
  induction series using List.reverseRecOn with
  | nil => rfl
  | append_singleton series a =>
    rw [stretch_concat, List.getLast?_concat]
    split
    · rw [List.getLast?_concat]
    · rfl

theorem stretch_suffix (series : List α) : stretch R series <:+ series := by
  induction series using List.reverseRecOn with
  | nil => exact List.suffix_refl _
  | append_singleton series a ih =>
    rw [stretch_concat]
    split
    · obtain ⟨before, eq⟩ := ih
      exact ⟨before, by rw [← List.append_assoc, eq]⟩
    · exact List.suffix_append series [a]

/-- **No longer end of a series has only related neighbours**, and every shorter one
has. -/
theorem le_length_stretch_iff (series : List α) (n : Nat) :
    n ≤ (stretch R series).length ↔ n ≤ series.length ∧ (series.rtake n).IsChain R := by
  induction series using List.reverseRecOn generalizing n with
  | nil => simp [stretch, List.rtake_nil]
  | append_singleton series a ih =>
    cases n with
    | zero => simp [List.rtake_zero]
    | succ n =>
      have joined : (series.rtake n ++ [a]).IsChain R ↔
          (series.rtake n).IsChain R ∧ ∀ last ∈ (series.rtake n).getLast?, R last a := by
        simp [List.isChain_append]
      rw [stretch_concat, List.rtake_concat_succ, joined, getLast?_stretch]
      by_cases related : ∀ last ∈ series.getLast?, R last a
      · have related' : ∀ last ∈ (series.rtake n).getLast?, R last a := by
          cases n with
          | zero => simp [List.rtake_zero]
          | succ n => rwa [getLast?_rtake series (Nat.succ_pos n)]
        rw [if_pos related, List.length_append, List.length_append, List.length_singleton,
          Nat.add_le_add_iff_right, Nat.add_le_add_iff_right, ih n]
        exact ⟨fun ⟨short, chain⟩ => ⟨short, chain, related'⟩,
          fun ⟨short, chain, _⟩ => ⟨short, chain⟩⟩
      · rw [if_neg related]
        cases n with
        | zero => simp [List.rtake_zero]
        | succ n =>
          rw [getLast?_rtake series (Nat.succ_pos n)]
          exact ⟨fun long => absurd long (by simp), fun ⟨_, _, all⟩ => absurd all related⟩

end

/-! ## What an estimator takes in -/

inductive PaceEvent where
  /-- A page was shown at a moment. -/
  | report (turn : PageTurn)
  | reset
  deriving DecidableEq, Repr

/-- Reading went on between two turns: there was no pause that interrupts it, and no jump. -/
def PageTurn.Connected (t : Tuning α) (a b : PageTurn) : Prop :=
  b.moment - a.moment < t.idleTime ∧ a.gap b ≤ t.longestTurn.toNat

instance (t : Tuning α) : DecidableRel (PageTurn.Connected t) :=
  fun _ _ => inferInstanceAs (Decidable (_ ∧ _))

namespace Pace

/-- The reports since the latest reset. -/
def reports (events : List PaceEvent) : List PageTurn :=
  events.foldl (fun reports event =>
    match event with
    | .report turn => reports ++ [turn]
    | .reset => []) []

/-- The reports since the latest reset, without those that show the page again that was
shown in the one kept before. -/
def history (events : List PaceEvent) : List PageTurn :=
  (reports events).destutter fun a b => a.page ≠ b.page

theorem history_report (events : List PaceEvent) (next : PageTurn) :
    history (events ++ [.report next]) =
      if ∀ last ∈ (history events).getLast?, last.page ≠ next.page then history events ++ [next]
      else history events := by
  rw [history, reports, List.foldl_concat]
  exact destutter_concat _ _ _

theorem history_reset (events : List PaceEvent) : history (events ++ [.reset]) = [] := by
  rw [history, reports, List.foldl_concat]
  rfl

variable [Quantity α] {t : Tuning α} {s : Pace α}

def apply (t : Tuning α) (s : Pace α) : PaceEvent → Pace α
  | .report turn => s.observe t turn
  | .reset => .initial

def run (t : Tuning α) (events : List PaceEvent) : Pace α := events.foldl (apply t) .initial

theorem run_concat (t : Tuning α) (events : List PaceEvent) (event : PaceEvent) :
    run t (events ++ [event]) = (run t events).apply t event :=
  List.foldl_concat ..

def estimate (t : Tuning α) (previous : α) (window : List PageTurn) : α :=
  match measured? window with
  | none => previous
  | some measured => smooth t previous measured

/-! ## One report -/

theorem push_eq (t : Tuning α) (s : Pace α) (next : PageTurn) :
    s.push t next = ⟨Window.push (capacity t) s.turns next,
      estimate t s.pagesPerMinute (Window.push (capacity t) s.turns next)⟩ := by
  unfold push estimate
  dsimp only
  cases (measured? (Window.push (capacity t) s.turns next) : Option α) <;> rfl

theorem estimate_single (t : Tuning α) (speed : α) (next : PageTurn) :
    estimate t speed [next] = speed := by
  have instant : measured? [next] = (none : Option α) := by
    simp [measured?, elapsed?]
  rw [estimate, instant]

theorem push_first (t : Tuning α) (speed : α) (next : PageTurn) :
    push t ⟨[], speed⟩ next = ⟨[next], speed⟩ := by
  have window : Window.push (capacity t) [] next = [next] := by
    rw [Window.push_of_room (Nat.succ_pos _)]
    rfl
  rw [push_eq, window, estimate_single]

theorem observe_first (t : Tuning α) (empty : s.turns = []) (next : PageTurn) :
    s.observe t next = ⟨[next], s.pagesPerMinute⟩ := by
  obtain ⟨turns, speed⟩ := s
  obtain rfl : turns = [] := empty
  exact push_first t speed next

section
variable {last next : PageTurn} (found : s.turns.getLast? = some last)
include found

theorem observe_again (same : last.page = next.page) : s.observe t next = s := by
  rw [observe, found]
  exact if_pos same

theorem observe_idle (turned : last.page ≠ next.page)
    (idle : t.idleTime ≤ next.moment - last.moment) :
    s.observe t next = ⟨[next], Quantity.ofNat 0⟩ := by
  rw [observe, found]
  dsimp only
  rw [if_neg turned, carry, if_pos idle]
  exact push_first t _ next

theorem observe_jump (going : next.moment - last.moment < t.idleTime)
    (far : t.longestTurn.toNat < last.gap next) :
    s.observe t next = ⟨[next], s.pagesPerMinute⟩ := by
  have turned : last.page ≠ next.page := by
    intro same
    rw [PageTurn.gap_eq, same, Nat.sub_self] at far
    exact Nat.not_lt_zero _ far
  rw [observe, found]
  dsimp only
  rw [if_neg turned, carry, if_neg (Nat.not_le.mpr going),
    if_pos (UInt64.lt_iff_toNat_lt.mpr far)]
  exact push_first t _ next

theorem observe_connected (turned : last.page ≠ next.page) (connected : last.Connected t next) :
    s.observe t next = s.push t next := by
  obtain ⟨going, near⟩ := connected
  rw [observe, found]
  dsimp only
  rw [if_neg turned, carry, if_neg (Nat.not_le.mpr going),
    if_neg (UInt64.not_lt.mpr (UInt64.le_iff_toNat_le.mpr near))]

end

/-! ## A whole run -/

/-- A window that keeps the end of the longest connected end of a history. -/
def Follows (t : Tuning α) (kept : List PageTurn) (s : Pace α) : Prop :=
  s.turns = (stretch (PageTurn.Connected t) kept).rtake (capacity t)

variable {kept : List PageTurn}

theorem initial_follows (t : Tuning α) : (initial : Pace α).Follows t [] :=
  (List.rtake_nil _).symm

omit [Quantity α] in
theorem Follows.getLast? (h : s.Follows t kept) : s.turns.getLast? = kept.getLast? := by
  have room : 0 < capacity t := Nat.succ_pos _
  rw [show s.turns = _ from h, getLast?_rtake _ room, getLast?_stretch]

omit [Quantity α] in
theorem follows_alone {next : PageTurn}
    (alone : stretch (PageTurn.Connected t) (kept ++ [next]) = [next]) (speed : α) :
    (⟨[next], speed⟩ : Pace α).Follows t (kept ++ [next]) := by
  have room : [next].length - capacity t = 0 :=
    Nat.sub_eq_zero_of_le (Nat.succ_le_succ (Nat.zero_le _))
  rw [Follows, alone, List.rtake, room, List.drop_zero]

omit [Quantity α] in
theorem follows_apart {last next : PageTurn} (found : kept.getLast? = some last)
    (apart : ¬ last.Connected t next) (speed : α) :
    (⟨[next], speed⟩ : Pace α).Follows t (kept ++ [next]) := by
  refine follows_alone ?_ speed
  rw [stretch_concat, getLast?_stretch, found, if_neg (by simpa using apart)]

theorem Follows.push {last next : PageTurn} (h : s.Follows t kept)
    (found : kept.getLast? = some last) (connected : last.Connected t next) :
    (s.push t next).Follows t (kept ++ [next]) := by
  rw [Follows, turns_push, show s.turns = _ from h, Window.push_rtake, stretch_concat,
    getLast?_stretch, found, if_pos (by simpa using connected)]

/-- **The window follows the history**, whatever is reported. -/
theorem Follows.observe (h : s.Follows t kept) (next : PageTurn) :
    (s.observe t next).Follows t
      (if ∀ last ∈ kept.getLast?, last.page ≠ next.page then kept ++ [next] else kept) := by
  have latest := h.getLast?
  cases found : kept.getLast? with
  | none =>
    obtain rfl : kept = [] := List.getLast?_eq_none_iff.mp found
    rw [observe_first t (List.getLast?_eq_none_iff.mp latest), if_pos nofun]
    exact follows_alone rfl _
  | some last =>
    rw [found] at latest
    by_cases same : last.page = next.page
    · rw [observe_again latest same, if_neg (by simpa using same)]
      exact h
    · rw [if_pos (by simpa using same)]
      by_cases connected : last.Connected t next
      · rw [observe_connected latest same connected]
        exact h.push found connected
      · by_cases idle : t.idleTime ≤ next.moment - last.moment
        · rw [observe_idle latest same idle]
          exact follows_apart found connected _
        · have going := Nat.not_le.mp idle
          rw [observe_jump latest going (Nat.not_le.mp fun near => connected ⟨going, near⟩)]
          exact follows_apart found connected _

theorem run_follows (t : Tuning α) (events : List PaceEvent) :
    (run t events : Pace α).Follows t (history events) := by
  induction events using List.reverseRecOn with
  | nil => exact initial_follows t
  | append_singleton events event ih =>
    rw [run_concat]
    cases event with
    | report turn =>
      rw [history_report]
      exact ih.observe turn
    | reset =>
      rw [history_reset]
      exact initial_follows t

/-- **The window holds the latest connected turns.** After any reports and resets, and one
more report: of the history since the latest reset, without the pages shown again, the
window holds the end that is connected throughout, as far as there is room. The estimate
is zero behind a pause that interrupts reading, however far the turn; it stays as it was
behind a jump without such a pause, and for a page shown again, at whatever moment; and
otherwise it follows from the one before and the turns in the window. -/
theorem window_exact (t : Tuning α) (events : List PaceEvent) (next : PageTurn) :
    let before : Pace α := run t events
    let after : Pace α := run t (events ++ [.report next])
    let kept := history (events ++ [.report next])
    (∃ longest, IsGreatest {n | n ≤ kept.length ∧ (kept.rtake n).IsChain (PageTurn.Connected t)}
        longest ∧ after.turns = kept.rtake (min (t.speedWindow.toNat + 1) longest)) ∧
    (history events = [] → after.pagesPerMinute = estimate t before.pagesPerMinute after.turns) ∧
    ∀ last, (history events).getLast? = some last →
      (last.page = next.page → after = before) ∧
      (last.page ≠ next.page → t.idleTime ≤ next.moment - last.moment →
        after.pagesPerMinute = Quantity.ofNat 0) ∧
      (next.moment - last.moment < t.idleTime → t.longestTurn.toNat < last.gap next →
        after.pagesPerMinute = before.pagesPerMinute) ∧
      (last.page ≠ next.page → last.Connected t next →
        after.pagesPerMinute = estimate t before.pagesPerMinute after.turns) := by
  intro before after kept
  have reported : after = before.observe t next := run_concat t events (.report next)
  have follows : after.Follows t kept := run_follows t _
  have latest : before.turns.getLast? = (history events).getLast? := (run_follows t events).getLast?
  refine ⟨⟨(stretch (PageTurn.Connected t) kept).length, ⟨?_, ?_⟩, ?_⟩, ?_, ?_⟩
  · exact (le_length_stretch_iff _ _ _).mp (Nat.le_refl _)
  · exact fun n longer => (le_length_stretch_iff _ _ _).mpr longer
  · rw [show after.turns = _ from follows]
    nth_rewrite 1 [List.suffix_iff_eq_drop.mp (stretch_suffix (PageTurn.Connected t) kept)]
    exact rtake_rtake kept _ _
  · intro nothing
    rw [nothing] at latest
    have empty : before.turns = [] := List.getLast?_eq_none_iff.mp latest
    rw [reported, observe_first t empty, estimate_single]
  · intro last found
    rw [found] at latest
    refine ⟨?_, ?_, ?_, ?_⟩
    · intro same
      rw [reported, observe_again latest same]
    · intro turned idle
      rw [reported, observe_idle latest turned idle]
    · intro going far
      rw [reported, observe_jump latest going far]
    · intro turned connected
      rw [reported, observe_connected latest turned connected, push_eq]

/-- Reading page by page, a page shown again, a jump, and reading on from there; moments
are in seconds. -/
def browsing : List PaceEvent :=
  [(0, 0), (1, 6), (1, 9), (2, 12), (400, 20), (401, 26), (402, 32)].map fun (page, second) =>
    .report ⟨page, Duration.ofParts second 0⟩

/-- **Not vacuous**: with room for three turns, the window of a reader who turns one more
page holds three of the four turns since the jump; the estimate follows from them. After
half a minute instead, it holds one, and the estimate is zero. -/
theorem window_exact_interrupted :
    let t : Tuning Float := { Tuning.standard with speedWindow := 2 }
    let soon : PageTurn := ⟨403, Duration.ofParts 38 0⟩
    let late : PageTurn := ⟨403, Duration.ofParts 62 0⟩
    (run t (browsing ++ [.report soon])).turns
      = [⟨401, Duration.ofParts 26 0⟩, ⟨402, Duration.ofParts 32 0⟩, soon] ∧
    (run t (browsing ++ [.report late])).turns = [late] ∧
    (run t (browsing ++ [.report soon])).pagesPerMinute
      = estimate t (run t browsing).pagesPerMinute (run t (browsing ++ [.report soon])).turns ∧
    (run t (browsing ++ [.report late])).pagesPerMinute = 0.0 := by
  intro t soon late
  obtain ⟨⟨longest, greatest, window⟩, _, reading⟩ := window_exact t browsing soon
  obtain ⟨⟨longest', greatest', window'⟩, _, pausing⟩ := window_exact t browsing late
  have four : 4 ≤ longest := greatest.2 (by decide +kernel)
  have alone : longest' = 1 := by
    refine Nat.le_antisymm ?_ (greatest'.2 (by decide +kernel))
    have apart : ∀ n ≤ (history (browsing ++ [.report late])).length,
        ((history (browsing ++ [.report late])).rtake n).IsChain (PageTurn.Connected t) →
          n ≤ 1 := by
      decide +kernel
    exact apart longest' greatest'.1.1 greatest'.1.2
  have room : min (t.speedWindow.toNat + 1) longest = 3 := Nat.min_eq_left (Nat.le_of_succ_le four)
  obtain ⟨_, _, _, follows⟩ := reading ⟨402, Duration.ofParts 32 0⟩ (by decide +kernel)
  obtain ⟨_, idle, _, _⟩ := pausing ⟨402, Duration.ofParts 32 0⟩ (by decide +kernel)
  refine ⟨?_, ?_, follows (by decide) (by decide +kernel), idle (by decide) (by decide +kernel)⟩
  · rw [window, room]
    decide +kernel
  · rw [window', alone]
    decide +kernel

end Pace

/-! ## The estimator of a planner -/

namespace Planner

variable [Quantity α]

/-- What an event at a moment is for the estimator of the reading speed, if anything. -/
def paceEvent? : Duration × PlannerEvent α → Option PaceEvent
  | (now, .page page pageCount) => if page < pageCount then some (.report ⟨page, now⟩) else none
  | (_, .reset) => some .reset
  | (_, .frame _) | (_, .tilt _) => none

theorem pace_apply (p : Planner α) (now : Duration) (event : PlannerEvent α) :
    (p.apply now event).pace =
      match paceEvent? (now, event) with
      | none => p.pace
      | some event => p.pace.apply p.tuning event := by
  cases event with
  | page page pageCount =>
    by_cases inside : page < pageCount
    · simp only [paceEvent?, if_pos inside]
      exact (p.showPage_updates now inside).2.1
    · simp only [paceEvent?, if_neg inside]
      exact congrArg pace (if_pos (UInt64.not_lt.mp inside))
  | frame interval =>
    show (p.observeFrame now interval).pace = p.pace
    rcases p.observeFrame_cases now interval with ⟨_, _, _, eq⟩ | ⟨_, frames, stream, eq⟩
    · rw [eq]
    · obtain ⟨_, _, overloaded⟩ := overload_frame { p with
          frames := frames, streams := { p.streams with frameInterval := stream } } now
      rw [eq, overloaded]
  | tilt acceleration =>
    show (p.observeTilt acceleration).pace = p.pace
    obtain ⟨_, _, _, _, eq, _⟩ := p.observeTilt_frame acceleration
    rw [eq]
  | reset => rfl

/-- **The estimator of a planner takes in pages and resets**, and nothing else. -/
theorem run_pace (t : Tuning α) (events : List (Duration × PlannerEvent α)) :
    ((start t).run events).pace = Pace.run t (events.filterMap paceEvent?) := by
  induction events using List.reverseRecOn with
  | nil => rfl
  | append_singleton events event ih =>
    have last : (start t).run (events ++ [event])
        = ((start t).run events).apply event.1 event.2 := List.foldl_concat ..
    rw [last, pace_apply, (run_paced t events).tuned, ih, List.filterMap_append]
    cases taken : paceEvent? event with
    | none => simp [taken]
    | some event => simp [taken, Pace.run_concat]

end Planner

end ReadAhead
