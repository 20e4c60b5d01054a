import Mathlib.Algebra.Order.Archimedean.Basic
import Mathlib.Tactic.FieldSimp
import Mathlib.Tactic.Linarith
import Mathlib.Tactic.Positivity
import Mathlib.Tactic.Ring
import ReadAhead.Proofs.Numeric.Unrounded
import ReadAhead.Proofs.Planner.Checked

/-!
  Cadence — what the reading speed comes to when pages are turned at a steady pace

  From some report on, each turn goes some pages on and comes some time after the one
  before. A window made of such turns measures the pace whatever its size, as the pages
  and the times between its ends grow alike. Older turns leave the window after as many
  new ones as it measures. From then on smoothing takes the same share off the error each
  time; only an estimate of zero is replaced at once.

  Nothing is rounded here: the estimator is read over an ordered field. Its sums are of
  64-bit counts all the same, so there is one tuning, with the largest window, with which
  no page is taken in at all. Otherwise the sums fit as long as the pages have numbers, but
  for what older turns in the window may add to them.

  What is proved:
    1. `approaches_of_each`, `exists_share_lt` — values of which each step leaves the same
       share of the distance from a goal: they stay on their side of it, and come close.
    2. `Pace.measured_steps` — what a window made of steady turns measures.
    3. `Pace.Steady.push`, `Pace.steady_onward` — the end of the window that is steady
       grows with each steady turn, whatever came before, and is all of it in the end.
    4. `Pace.run?_onward` — steady turns are taken in if the pages covered before leave
       room for theirs.
    5. `Pace.Steady.speed_succ`, `speed_approaches`, `speed_from_empty` — the estimate.
    6. `Pace.cadence_approached` — the error shrinks by the same share from the time on at
       which the window is steady, when that is at the latest, and that the estimate is
       exact after two reports if the window was empty.
    7. `Pace.cadence_approached_quicker` (anti-vacuity) — a reader who becomes quicker;
       `Pace.cadence_cut_short` — the tuning with the largest window.
-/

namespace ReadAhead

/-! ## Values that approach a goal -/

section
variable {K : Type} [Field K] [LinearOrder K] [IsStrictOrderedRing K]

/-- Values of which each of the first so many steps leaves the same share of the distance
from a goal. -/
structure Approaches (share goal : K) (steps : Nat) (value : Nat → K) : Prop where
  each : ∀ i < steps, value (i + 1) - goal = share * (value i - goal)
  geometric : ∀ i ≤ steps, value i - goal = share ^ i * (value 0 - goal)
  /-- From above, the values go down and not below the goal. -/
  above : goal ≤ value 0 → ∀ i ≤ steps, goal ≤ value i ∧ value i ≤ value 0
  /-- From below, the values go up and not above the goal. -/
  below : value 0 ≤ goal → ∀ i ≤ steps, value 0 ≤ value i ∧ value i ≤ goal

theorem approaches_of_each {share goal : K} {steps : Nat} {value : Nat → K} (least : 0 ≤ share)
    (most : share ≤ 1)
    (each : ∀ i < steps, value (i + 1) - goal = share * (value i - goal)) :
    Approaches share goal steps value := by
  have geometric : ∀ i ≤ steps, value i - goal = share ^ i * (value 0 - goal) := by
    intro i
    induction i with
    | zero => intro _; rw [pow_zero, one_mul]
    | succ i ih =>
      intro reached
      rw [each i reached, ih (Nat.le_of_succ_le reached), pow_succ]
      ring
  have shares (i : Nat) : 0 ≤ share ^ i ∧ share ^ i ≤ 1 :=
    ⟨pow_nonneg least i, pow_le_one₀ least most⟩
  -- what is left of a distance has its sign and is no larger
  refine ⟨each, geometric, fun high i reached => ?_, fun low i reached => ?_⟩
  · have left := geometric i reached
    have same_side := mul_nonneg (shares i).1 (sub_nonneg.mpr high)
    have no_larger := mul_le_of_le_one_left (sub_nonneg.mpr high) (shares i).2
    constructor <;> linarith only [left, same_side, no_larger]
  · have left := geometric i reached
    have same_side := mul_nonneg (shares i).1 (sub_nonneg.mpr low)
    have no_larger := mul_le_of_le_one_left (sub_nonneg.mpr low) (shares i).2
    constructor <;> linarith only [left, same_side, no_larger]

theorem exists_share_lt [Archimedean K] {share bound : K} (least : 0 ≤ share) (less : share < 1)
    (distance : K) (pos : 0 < bound) :
    ∃ enough : Nat, ∀ steps, enough ≤ steps → share ^ steps * |distance| < bound := by
  have wide : 0 < |distance| + 1 := add_pos_of_nonneg_of_pos (abs_nonneg _) one_pos
  obtain ⟨enough, small⟩ := exists_pow_lt_of_lt_one (div_pos pos wide) less
  refine ⟨enough, fun steps more => ?_⟩
  calc share ^ steps * |distance|
    _ ≤ share ^ enough * (|distance| + 1) :=
        mul_le_mul (pow_le_pow_of_le_one least less.le more) (le_add_of_nonneg_right zero_le_one)
          (abs_nonneg _) (pow_nonneg least _)
    _ < bound := (lt_div_iff₀ wide).mp small

end

/-! ## A steady pace -/

/-- A turn of so many pages, so long after the one before. -/
def PageTurn.Steps (pages : Nat) (interval : Duration) (a b : PageTurn) : Prop :=
  b.page.toNat = a.page.toNat + pages ∧ b.moment = a.moment + interval

/-- The turn that comes so many turns after another one, at a steady pace. -/
def PageTurn.ahead (turn : PageTurn) (pages : Nat) (interval : Duration) (turns : Nat) : PageTurn :=
  ⟨UInt64.ofNat (turn.page.toNat + turns * pages), turn.moment + turns * interval⟩

/-- A steady pace in pages per minute. -/
def steadySpeed {K : Type} [Field K] (pages : Nat) (interval : Duration) : K :=
  60 * pages / ((interval : Nat) / (Duration.perSecond : Nat))

theorem steadySpeed_pos {K : Type} [Field K] [LinearOrder K] [IsStrictOrderedRing K] {pages : Nat}
    {interval : Duration} (some_pages : 1 ≤ pages) (moves : 0 < interval) :
    (0 : K) < steadySpeed pages interval := by
  have page : (0 : K) < pages := Nat.cast_pos.mpr some_pages
  have time : (0 : K) < (interval : Nat) := Nat.cast_pos.mpr moves
  have second : (0 : K) < (Duration.perSecond : Nat) := Nat.cast_pos.mpr (by decide)
  rw [steadySpeed]
  positivity

section
variable {pages : Nat} {interval : Duration}

theorem PageTurn.ahead_zero (turn : PageTurn) : turn.ahead pages interval 0 = turn := by
  simp [ahead]

theorem PageTurn.steps_ahead {turn : PageTurn} {turns : Nat}
    (there : turn.page.toNat + (turns + 1) * pages < UInt64.size) :
    (turn.ahead pages interval turns).Steps pages interval
      (turn.ahead pages interval (turns + 1)) := by
  rw [Nat.succ_mul, ← Nat.add_assoc] at there
  have here := Nat.lt_of_le_of_lt (Nat.le_add_right _ pages) there
  simp only [Steps, ahead, Nat.succ_mul, ← Nat.add_assoc, UInt64.toNat_ofNat_of_lt' here,
    UInt64.toNat_ofNat_of_lt' there, and_self]

theorem PageTurn.Steps.gap {a b : PageTurn} (step : a.Steps pages interval b) :
    a.gap b = pages := by
  rw [gap_eq, step.1]
  omega

theorem PageTurn.Steps.connected {α : Type} {t : Tuning α} {a b : PageTurn}
    (step : a.Steps pages interval b) (near : pages ≤ t.longestTurn.toNat)
    (going : interval < t.idleTime) : a.Connected t b := by
  refine ⟨?_, step.gap.trans_le near⟩
  rw [step.2, Nat.add_sub_cancel_left]
  exact going

theorem PageTurn.Steps.turned {a b : PageTurn} (step : a.Steps pages interval b)
    (some_pages : 1 ≤ pages) : a.page ≠ b.page := by
  intro same
  have moved := step.1
  rw [same] at moved
  omega

namespace Pace

theorem elapsed_steps {first : PageTurn} {turns : List PageTurn}
    (steps : (first :: turns).IsChain (PageTurn.Steps pages interval)) {last : PageTurn}
    (found : (first :: turns).getLast? = some last) :
    last.moment = first.moment + turns.length * interval := by
  induction turns generalizing first with
  | nil =>
    cases found
    simp
  | cons next turns ih =>
    obtain ⟨step, steps⟩ := List.isChain_cons_cons.mp steps
    rw [List.getLast?_cons_cons] at found
    rw [ih steps found, step.2, List.length_cons, Nat.succ_mul, Nat.add_assoc,
      Nat.add_comm interval]

theorem page_steps {first : PageTurn} {turns : List PageTurn}
    (steps : (first :: turns).IsChain (PageTurn.Steps pages interval)) {last : PageTurn}
    (found : (first :: turns).getLast? = some last) :
    last.page.toNat = first.page.toNat + turns.length * pages := by
  induction turns generalizing first with
  | nil =>
    cases found
    simp
  | cons next turns ih =>
    obtain ⟨step, steps⟩ := List.isChain_cons_cons.mp steps
    rw [List.getLast?_cons_cons] at found
    rw [ih steps found, step.1, List.length_cons, Nat.succ_mul, Nat.add_assoc,
      Nat.add_comm pages]

theorem distance_steps {turns : List PageTurn}
    (steps : turns.IsChain (PageTurn.Steps pages interval)) :
    distance turns = (turns.length - 1) * pages := by
  have near : turns.IsChain fun a b => pages ≤ a.gap b ∧ a.gap b ≤ pages :=
    steps.imp fun _ _ step => ⟨Nat.le_of_eq step.gap.symm, Nat.le_of_eq step.gap⟩
  exact Nat.le_antisymm (distance_between near).2 (distance_between near).1

theorem distance_le_page {turns : List PageTurn}
    (steps : turns.IsChain (PageTurn.Steps pages interval)) {last : PageTurn}
    (found : turns.getLast? = some last) : distance turns ≤ last.page.toNat := by
  cases turns with
  | nil => cases found
  | cons first turns =>
    rw [distance_steps steps, page_steps steps found, List.length_cons, Nat.add_sub_cancel]
    exact Nat.le_add_left _ _

end Pace

end

namespace Pace

/-! ## The measured speed -/

section
open scoped Unrounded

variable {K : Type} [Field K] [LinearOrder K] [FloorRing K] [Instruments K]
variable {pages : Nat} {interval : Duration}

theorem inSeconds_eq (d : Duration) :
    (inSeconds d : K) = ((d : Nat) : K) / ((Duration.perSecond : Nat) : K) := by
  have second : ((Duration.perSecond : Nat) : K) ≠ 0 := Nat.cast_ne_zero.mpr (by decide)
  have parts : Duration.perSecond * d.seconds + d.subsecond = d :=
    Nat.div_add_mod d Duration.perSecond
  show (d.seconds : K) + (d.subsecond : K) / (Duration.perSecond : K) = _
  rw [eq_div_iff second, add_mul, div_mul_cancel₀ _ second]
  conv => rhs; rw [← parts, Nat.cast_add, Nat.cast_mul, mul_comm]

/-- **Turns at a steady pace measure it**, however many there are. -/
theorem measured_steps {turns : List PageTurn}
    (steps : turns.IsChain (PageTurn.Steps pages interval)) (two : 2 ≤ turns.length)
    (moves : 0 < interval) : measured? turns = some (steadySpeed pages interval : K) := by
  cases turns with
  | nil => cases two
  | cons first turns =>
    have some_turns : 0 < turns.length := Nat.lt_of_succ_lt_succ two
    obtain ⟨last, found⟩ : ∃ last, (first :: turns).getLast? = some last :=
      ⟨_, List.getLast?_eq_some_getLast (List.cons_ne_nil _ _)⟩
    have later := elapsed_steps steps found
    have spans : elapsed? (first :: turns) = some (turns.length * interval) := by
      have ahead : first.moment < last.moment := by
        rw [later]
        exact Nat.lt_add_of_pos_right (Nat.mul_pos some_turns moves)
      simp only [elapsed?, List.head?_cons, found, Option.bind_eq_bind, Option.bind_some,
        if_pos ahead]
      rw [later, Nat.add_sub_cancel_left]
    have turns_ne : ((turns.length : Nat) : K) ≠ 0 := Nat.cast_ne_zero.mpr (Nat.ne_of_gt some_turns)
    have interval_ne : ((interval : Nat) : K) ≠ 0 := Nat.cast_ne_zero.mpr (Nat.ne_of_gt moves)
    have second : ((Duration.perSecond : Nat) : K) ≠ 0 := Nat.cast_ne_zero.mpr (by decide)
    rw [measured?, spans, distance_steps steps, Option.map_some, perMinute, inSeconds_eq,
      steadySpeed, List.length_cons, Nat.add_sub_cancel]
    refine congrArg some ?_
    show ((turns.length * pages : Nat) : K) * ((60 : Nat) : K)
      / (((turns.length * interval : Nat) : K) / ((Duration.perSecond : Nat) : K)) = _
    push_cast
    field_simp

end

/-- So many turns at a steady pace, behind a turn. -/
def onward (first : PageTurn) (pages : Nat) (interval : Duration) (turns : Nat) : List PaceEvent :=
  (List.range turns).map fun i => .report (first.ahead pages interval (i + 1))

/-! ## The window at a steady pace -/

section
variable {α : Type} [Quantity α] {t : Tuning α} {s : Pace α} {pages : Nat} {interval : Duration}
variable {turns : Nat} {last next : PageTurn}

/-- The latest so many turns in the window are at a steady pace, down to the last. -/
structure Steady (pages : Nat) (interval : Duration) (turns : Nat) (last : PageTurn) (s : Pace α) :
    Prop where
  steps : (s.turns.rtake turns).IsChain (PageTurn.Steps pages interval)
  last : s.turns.getLast? = some last

omit [Quantity α] in
theorem Steady.fewer {fewer : Nat} (h : s.Steady pages interval turns last) (le : fewer ≤ turns) :
    s.Steady pages interval fewer last where
  steps := by
    rw [← Nat.min_eq_left le, ← rtake_rtake]
    exact h.steps.drop _
  last := h.last

omit [Quantity α] in
theorem Steady.joined (h : s.Steady pages interval turns last) (some_turns : 0 < turns)
    (step : last.Steps pages interval next) :
    (s.turns.rtake turns ++ [next]).IsChain (PageTurn.Steps pages interval) := by
  refine List.isChain_append.mpr ⟨h.steps, .singleton _, ?_⟩
  rintro a found b ⟨⟩
  rw [getLast?_rtake _ some_turns, h.last] at found
  cases found
  exact step

theorem push_eq_rtake (t : Tuning α) (s : Pace α) (next : PageTurn) :
    (s.push t next).turns = (s.turns ++ [next]).rtake (capacity t) := by
  rw [turns_push]
  rfl

theorem Steady.push (h : s.Steady pages interval turns last) (some_turns : 0 < turns)
    (step : last.Steps pages interval next) :
    (s.push t next).Steady pages interval (turns + 1) next where
  steps := by
    rw [push_eq_rtake, rtake_rtake, Nat.min_comm, ← rtake_rtake, List.rtake_concat_succ]
    exact (h.joined some_turns step).drop _
  last := by
    have room : 0 < capacity t := Nat.succ_pos _
    rw [push_eq_rtake, getLast?_rtake _ room, List.getLast?_concat]

omit [Quantity α] in
theorem steady_one (found : s.turns.getLast? = some last) : s.Steady pages interval 1 last where
  steps := by
    have few : (s.turns.rtake 1).length ≤ 1 := by
      rw [List.rtake, List.length_drop]
      omega
    match latest : s.turns.rtake 1 with
    | [] => exact .nil
    | [a] => exact .singleton a
    | a :: b :: others =>
      rw [latest] at few
      exact absurd few (by simp)
  last := found

theorem onward_succ (first : PageTurn) (turns : Nat) :
    onward first pages interval (turns + 1) = onward first pages interval turns ++
      [.report (first.ahead pages interval (turns + 1))] := by
  rw [onward, List.range_succ, List.map_append]
  rfl

variable {events : List PaceEvent} {first : PageTurn} {start : Nat}

omit [Quantity α] in
theorem there_of_le {fewer : Nat} (le : fewer ≤ turns)
    (there : first.page.toNat + turns * pages < UInt64.size) :
    first.page.toNat + fewer * pages < UInt64.size :=
  Nat.lt_of_le_of_lt (Nat.add_le_add_left (Nat.mul_le_mul_right _ le) _) there

theorem run_onward_succ (t : Tuning α) (events : List PaceEvent) (first : PageTurn) (turns : Nat) :
    run t (events ++ onward first pages interval (turns + 1))
      = (run t (events ++ onward first pages interval turns)).observe t
          (first.ahead pages interval (turns + 1)) := by
  rw [onward_succ, ← List.append_assoc, run_concat]
  rfl

section
variable (some_pages : 1 ≤ pages) (near : pages ≤ t.longestTurn.toNat)
variable (going : interval < t.idleTime)
include some_pages near going

theorem Steady.observe_eq (h : s.Steady pages interval turns last)
    (step : last.Steps pages interval next) : s.observe t next = s.push t next :=
  observe_connected h.last (step.turned some_pages) (step.connected near going)

/-- **Going on at a steady pace**, there are more and more such turns in the window. -/
theorem Steady.goes_on (kept : 0 < turns)
    (h : (run t (events ++ onward first pages interval start)).Steady pages interval turns
      (first.ahead pages interval start)) {made : Nat} (later : start ≤ made)
    (there : first.page.toNat + made * pages < UInt64.size) :
    (run t (events ++ onward first pages interval made)).Steady pages interval
      (turns + (made - start)) (first.ahead pages interval made) := by
  induction made, later using Nat.le_induction with
  | base =>
    rw [Nat.sub_self]
    exact h
  | succ made later ih =>
    have h := ih (there_of_le (Nat.le_succ _) there)
    have step : (first.ahead pages interval made).Steps pages interval
        (first.ahead pages interval (made + 1)) := PageTurn.steps_ahead there
    rw [run_onward_succ, h.observe_eq some_pages near going step, Nat.succ_sub later]
    exact h.push (Nat.lt_of_lt_of_le kept (Nat.le_add_right _ _)) step

end

/-- The window ends with the page that was shown last; it ends with the very report unless
the page was shown before. -/
theorem getLast?_report (t : Tuning α) (events : List PaceEvent) (next : PageTurn) :
    ∃ last, (run t (events ++ [.report next])).turns.getLast? = some last ∧
      last.page = next.page ∧
      ((∀ before ∈ (history events).getLast?, before.page ≠ next.page) → last = next) := by
  have latest := (run_follows t (events ++ [.report next])).getLast?
  rw [history_report] at latest
  by_cases turned : ∀ before ∈ (history events).getLast?, before.page ≠ next.page
  · rw [if_pos turned, List.getLast?_concat] at latest
    exact ⟨next, latest, rfl, fun _ => rfl⟩
  · rw [if_neg turned] at latest
    obtain ⟨last, found, same⟩ : ∃ last ∈ (history events).getLast?, last.page = next.page := by
      simpa using turned
    exact ⟨last, latest.trans found, same, fun differs => absurd differs turned⟩

/-- **Steady turns are taken in, with checked sums**, if the pages that the window covers
leave room for theirs. The turn before them may have shown its page again. -/
theorem run?_onward (room : t.speedWindow.toNat + 1 < UInt64.size)
    (taken : run? t events = some (run t events))
    (found : (run t events).turns.getLast? = some last) (shown : last.page = first.page)
    (there : first.page.toNat + turns * pages < UInt64.size)
    (sum : distance (run t events).turns + turns * pages < UInt64.size) :
    run? t (events ++ onward first pages interval turns)
      = some (run t (events ++ onward first pages interval turns)) := by
  -- the page shown last and the pages covered are known after each of the turns
  have all : ∀ made ≤ turns,
      run? t (events ++ onward first pages interval made)
        = some (run t (events ++ onward first pages interval made)) ∧
      (∃ latest, (run t (events ++ onward first pages interval made)).turns.getLast? = some latest ∧
        latest.page = (first.ahead pages interval made).page) ∧
      distance (run t (events ++ onward first pages interval made)).turns
        ≤ distance (run t events).turns + made * pages := by
    intro made
    induction made with
    | zero =>
      intro _
      rw [onward, List.range_zero, List.map_nil, List.append_nil, PageTurn.ahead_zero]
      exact ⟨taken, ⟨last, found, shown⟩, Nat.le_add_right _ _⟩
    | succ made ih =>
      intro fewer
      obtain ⟨before, ⟨latest, found, same⟩, covered⟩ := ih (Nat.le_of_succ_le fewer)
      have step : (first.ahead pages interval made).Steps pages interval
          (first.ahead pages interval (made + 1)) := PageTurn.steps_ahead (there_of_le fewer there)
      have gap : latest.gap (first.ahead pages interval (made + 1)) = pages := by
        rw [PageTurn.gap, same]
        exact step.gap
      have grown := distance_observe_le t found (first.ahead pages interval (made + 1))
      rw [gap] at grown
      have sums : distance ((run t (events ++ onward first pages interval made)).observe t
            (first.ahead pages interval (made + 1))).turns
          ≤ distance (run t events).turns + (made + 1) * pages := by
        rw [Nat.succ_mul, ← Nat.add_assoc]
        exact Nat.le_trans grown (Nat.add_le_add_right covered pages)
      have small := Nat.lt_of_le_of_lt sums (Nat.lt_of_le_of_lt
        (Nat.add_le_add_left (Nat.mul_le_mul_right pages fewer) _) sum)
      rw [onward_succ, ← List.append_assoc]
      obtain ⟨latest', found', same', _⟩ := getLast?_report t
        (events ++ onward first pages interval made) (first.ahead pages interval (made + 1))
      refine ⟨run?_report before (fits_of_distance room small), ⟨latest', found', same'⟩, ?_⟩
      rw [run_concat]
      exact sums
  exact (all turns (Nat.le_refl _)).1

/-- The first turn at a steady pace is in the window, whatever was there before: the page
that it leaves may have been shown again, but it is another one. -/
theorem steady_first (interval : Duration) (some_pages : 1 ≤ pages) (t : Tuning α)
    (events : List PaceEvent) (there : first.page.toNat + 1 * pages < UInt64.size) :
    (run t (events ++ [.report first] ++ onward first pages interval 1)).Steady pages interval 1
      (first.ahead pages interval 1) := by
  obtain ⟨before, found, shown, _⟩ := getLast?_report t events first
  obtain ⟨last, found', _, same⟩ :=
    getLast?_report t (events ++ [.report first]) (first.ahead pages interval 1)
  have step : (first.ahead pages interval 0).Steps pages interval (first.ahead pages interval 1) :=
    PageTurn.steps_ahead there
  rw [PageTurn.ahead_zero] at step
  -- `before` may be older than `first`, but it shows the same page, and `last` shows another
  have latest := (run_follows t (events ++ [.report first])).getLast?.symm.trans found
  obtain rfl : last = first.ahead pages interval 1 := by
    refine same fun before' found'' => ?_
    cases latest.symm.trans found''
    rw [shown]
    exact step.turned some_pages
  exact steady_one found'

/-- After any report, all turns at a steady pace are in the window, as far as there is
room. -/
theorem steady_onward (some_pages : 1 ≤ pages) (near : pages ≤ t.longestTurn.toNat)
    (going : interval < t.idleTime) (events : List PaceEvent) (made : 1 ≤ turns)
    (there : first.page.toNat + turns * pages < UInt64.size) :
    (run t (events ++ [.report first] ++ onward first pages interval turns)).Steady pages interval
      turns (first.ahead pages interval turns) := by
  have one := steady_first interval some_pages t events (there_of_le made there)
  have all := one.goes_on some_pages near going Nat.one_pos made there
  rwa [Nat.add_sub_of_le made] at all

theorem Steady.whole (h : (run t events).Steady pages interval turns last)
    (room : capacity t ≤ turns) :
    (run t events).turns.IsChain (PageTurn.Steps pages interval) := by
  have all : (run t events).turns.rtake (capacity t) = (run t events).turns := by
    rw [show (run t events).turns = _ from run_follows t events, rtake_rtake, Nat.min_self]
  rw [← all]
  exact (h.fewer room).steps

end

/-! ## The estimate at a steady pace -/

section
open scoped Unrounded

variable {K : Type} [Field K] [LinearOrder K] [FloorRing K] [Instruments K]
variable {t : Tuning K} {s : Pace K} {pages : Nat} {interval : Duration} {turns : Nat}
variable {last next : PageTurn}

theorem weight_of_validate (usable : t.validate = .ok t) :
    0 < t.speedWeight ∧ t.speedWeight ≤ 1 :=
  (Unrounded.isWeight_iff _).mp (Tuning.isWeight_of_validate usable)

/-- **With the window at a steady pace, this pace is measured.** -/
theorem Steady.estimate_push (h : s.Steady pages interval t.speedWindow.toNat last)
    (room : 0 < t.speedWindow.toNat) (step : last.Steps pages interval next)
    (moves : 0 < interval) :
    (s.push t next).pagesPerMinute = smooth t s.pagesPerMinute (steadySpeed pages interval) := by
  have window : Window.push (capacity t) s.turns next
      = s.turns.rtake t.speedWindow.toNat ++ [next] := List.rtake_concat_succ ..
  have two : 2 ≤ (Window.push (capacity t) s.turns next).length := by
    have filled : s.turns.rtake t.speedWindow.toNat ≠ [] := by
      intro empty
      have found := getLast?_rtake s.turns room
      rw [empty, h.last] at found
      cases found
    rw [window, List.length_append, List.length_singleton]
    exact Nat.succ_le_succ (List.length_pos_iff.mpr filled)
  have steps : (Window.push (capacity t) s.turns next).IsChain (PageTurn.Steps pages interval) :=
    window ▸ h.joined room step
  rw [push_eq, estimate, measured_steps steps two moves]

/-- Away from zero, the estimate goes from the old one towards the goal by the weight. -/
theorem smooth_of_pos {speed : K} (pos : 0 < speed) (goal : K) :
    smooth t speed goal = t.speedWeight * goal + (1 - t.speedWeight) * speed := by
  have zero : (Quantity.ofNat 0 : K) = 0 := Nat.cast_zero
  have one : (Quantity.ofNat 1 : K) = 1 := Nat.cast_one
  rw [smooth, zero, one, if_pos pos]

theorem smooth_zero (t : Tuning K) (goal : K) : smooth t 0 goal = goal := by
  have zero : (Quantity.ofNat 0 : K) = 0 := Nat.cast_zero
  rw [smooth, zero, if_neg (lt_irrefl 0)]

theorem speed_empty (t : Tuning K) {events : List PaceEvent}
    (empty : (run t events).turns = []) : (run t events).pagesPerMinute = 0 := by
  have zero : (Quantity.ofNat 0 : K) = 0 := Nat.cast_zero
  induction events using List.reverseRecOn with
  | nil => exact zero
  | append_singleton events event ih =>
    cases event with
    | report turn =>
      obtain ⟨last, found, _⟩ := getLast?_report t events turn
      rw [empty] at found
      cases found
    | reset =>
      rw [run_concat]
      exact zero

section
variable (some_pages : 1 ≤ pages) (near : pages ≤ t.longestTurn.toNat)
variable (going : interval < t.idleTime)
variable (usable : t.validate = .ok t) (moves : 0 < interval)
variable {events : List PaceEvent} {first : PageTurn}
include some_pages near going usable moves

theorem Steady.speed_succ
    (h : (run t (events ++ onward first pages interval turns)).Steady pages interval
      t.speedWindow.toNat (first.ahead pages interval turns))
    (there : first.page.toNat + (turns + 1) * pages < UInt64.size) :
    (run t (events ++ onward first pages interval (turns + 1))).pagesPerMinute
      = smooth t (run t (events ++ onward first pages interval turns)).pagesPerMinute
          (steadySpeed pages interval) := by
  have step : (first.ahead pages interval turns).Steps pages interval
      (first.ahead pages interval (turns + 1)) := PageTurn.steps_ahead there
  rw [run_onward_succ, h.observe_eq some_pages near going step]
  exact h.estimate_push (Tuning.speedWindow_of_validate usable) step moves

/-- As soon as the turns that are measured are at a steady pace, each further turn takes
the estimate towards it. -/
theorem Steady.speed_onward {start made : Nat} (kept : 0 < turns)
    (h : (run t (events ++ onward first pages interval start)).Steady pages interval turns
      (first.ahead pages interval start)) (later : start ≤ made)
    (enough : t.speedWindow.toNat ≤ turns + (made - start))
    (there : first.page.toNat + (made + 1) * pages < UInt64.size) :
    (run t (events ++ onward first pages interval (made + 1))).pagesPerMinute
      = smooth t (run t (events ++ onward first pages interval made)).pagesPerMinute
          (steadySpeed pages interval) :=
  have further := h.goes_on some_pages near going kept later (there_of_le (Nat.le_succ _) there)
  (further.fewer enough).speed_succ some_pages near going usable moves there

variable [IsStrictOrderedRing K]

/-- **Further turns at a steady pace** each leave the same share of the error. -/
theorem Steady.speed_approaches
    (h : (run t events).Steady pages interval t.speedWindow.toNat first)
    (positive : 0 < (run t events).pagesPerMinute)
    (there : first.page.toNat + turns * pages < UInt64.size) :
    Approaches (1 - t.speedWeight) (steadySpeed pages interval) turns fun n =>
      (run t (events ++ onward first pages interval n)).pagesPerMinute := by
  obtain ⟨some_weight, most⟩ := weight_of_validate usable
  have least : 0 ≤ 1 - t.speedWeight := sub_nonneg.mpr most
  have goal : (0 : K) < steadySpeed pages interval := steadySpeed_pos some_pages moves
  have start : (run t (events ++ onward first pages interval 0)).Steady pages interval
      t.speedWindow.toNat (first.ahead pages interval 0) := by
    simpa [onward, PageTurn.ahead_zero] using h
  have next : ∀ n < turns,
      (run t (events ++ onward first pages interval (n + 1))).pagesPerMinute
        = smooth t (run t (events ++ onward first pages interval n)).pagesPerMinute
            (steadySpeed pages interval) := by
    intro n before
    exact start.speed_onward some_pages near going usable moves
      (Tuning.speedWindow_of_validate usable) (Nat.zero_le _) (Nat.le_add_right _ _) (there_of_le before there)
  -- an estimate above zero never comes to zero, from where it would be replaced at once
  have positives : ∀ n ≤ turns,
      0 < (run t (events ++ onward first pages interval n)).pagesPerMinute := by
    intro n
    induction n with
    | zero =>
      intro _
      simpa [onward] using positive
    | succ n ih =>
      intro before
      rw [next n before, smooth_of_pos (ih (Nat.le_of_succ_le before))]
      exact add_pos_of_pos_of_nonneg (mul_pos some_weight goal)
        (mul_nonneg least (ih (Nat.le_of_succ_le before)).le)
  refine approaches_of_each least (sub_le_self 1 some_weight.le) fun n before => ?_
  rw [next n before, smooth_of_pos (positives n before.le)]
  ring

/-- Without turns before, the first two give the pace, and it stays. -/
theorem speed_from_empty (empty : (run t events).turns = [])
    (there : first.page.toNat + (turns + 1) * pages < UInt64.size) :
    (run t (events ++ [.report first] ++ onward first pages interval (turns + 1))).pagesPerMinute
      = steadySpeed pages interval := by
  have goal : (0 : K) < steadySpeed pages interval := steadySpeed_pos some_pages moves
  have alone : run t (events ++ [.report first]) = ⟨[first], 0⟩ := by
    rw [run_concat, ← speed_empty t empty]
    exact observe_first t empty first
  -- the window holds one turn, so all of it is at the pace from the start
  have start : (run t (events ++ [.report first] ++ onward first pages interval 0)).Steady pages
      interval t.speedWindow.toNat (first.ahead pages interval 0) := by
    rw [onward, List.range_zero, List.map_nil, List.append_nil, alone, PageTurn.ahead_zero]
    exact ⟨(List.IsChain.singleton first).drop _, rfl⟩
  have room := Tuning.speedWindow_of_validate usable
  induction turns with
  | zero =>
    rw [start.speed_onward some_pages near going usable moves room (Nat.zero_le _)
      (Nat.le_add_right _ _) there, onward, List.range_zero, List.map_nil, List.append_nil, alone,
      smooth_zero]
  | succ turns ih =>
    rw [start.speed_onward some_pages near going usable moves room (Nat.zero_le _)
      (Nat.le_add_right _ _) there, ih (there_of_le (Nat.le_succ _) there), smooth_of_pos goal]
    ring

end

/-- **At a steady pace the reading speed approaches it.** Over an ordered field, with a
tuning that is accepted and has a window smaller than the largest, and after any reports
and resets that were taken in: from some turn on each goes some pages on, which is no jump,
and comes some time later, which is no pause. While the pages have numbers, and once all
turns in the window are at this pace: as long as the estimate is above zero, each further
turn is taken in and leaves the same share of its error, which is one less the weight of
the newest measurement. So the estimate stays on one side of the pace, and comes as close
to it as one likes. This holds at the latest from the turn behind as many as are measured,
whatever came before, if only the pages covered before leave room for those of the turns;
and if the window was empty, the estimate is exact from the second report on. -/
theorem cadence_approached [IsStrictOrderedRing K] (t : Tuning K) (usable : t.validate = .ok t)
    (room : t.speedWindow.toNat + 1 < UInt64.size) (pages : Nat) (interval : Duration)
    (some_pages : 1 ≤ pages) (near : pages ≤ t.longestTurn.toNat) (moves : 0 < interval)
    (going : interval < t.idleTime) (events : List PaceEvent)
    (taken : run? t events = some (run t events)) :
    let goal : K := steadySpeed pages interval
    let share : K := 1 - t.speedWeight
    let speed (events : List PaceEvent) : K := (run t events).pagesPerMinute
    let isTaken (events : List PaceEvent) := run? t events = some (run t events)
    let isThere (first : PageTurn) (turns : Nat) := first.page.toNat + turns * pages < UInt64.size
    (∀ last, (run t events).turns.IsChain (PageTurn.Steps pages interval) →
      (run t events).turns.getLast? = some last → 0 < speed events →
      (∀ turns, isThere last turns →
        isTaken (events ++ onward last pages interval turns) ∧
        Approaches share goal turns fun n => speed (events ++ onward last pages interval n)) ∧
      ∀ bound, 0 < bound → ∃ enough, ∀ turns, enough ≤ turns → isThere last turns →
        |speed (events ++ onward last pages interval turns) - goal| < bound) ∧
    ∀ first turns, isThere first (turns + 1) →
      let after (n : Nat) := events ++ [.report first] ++ onward first pages interval n
      (t.speedWindow.toNat ≤ turns → isTaken (events ++ [.report first]) →
        distance (run t (events ++ [.report first])).turns + (turns + 1) * pages < UInt64.size →
        isTaken (after (turns + 1)) ∧
        (run t (after (turns + 1))).turns.IsChain (PageTurn.Steps pages interval) ∧
        (run t (after (turns + 1))).turns.getLast? = some (first.ahead pages interval (turns + 1)) ∧
        (0 < speed (after turns) →
          speed (after (turns + 1)) - goal = share * (speed (after turns) - goal))) ∧
      ((run t events).turns = [] →
        isTaken (after (turns + 1)) ∧ speed (after (turns + 1)) = goal) := by
  intro goal share speed isTaken isThere
  obtain ⟨some_weight, most⟩ := weight_of_validate usable
  constructor
  · intro last steps found positive
    have h : (run t events).Steady pages interval t.speedWindow.toNat last :=
      ⟨steps.drop _, found⟩
    have approaches (turns : Nat) (there : isThere last turns) :=
      h.speed_approaches some_pages near going usable moves positive there
    refine ⟨fun turns there => ⟨?_, approaches turns there⟩, fun bound some_bound => ?_⟩
    · refine run?_onward room taken found rfl there ?_
      exact Nat.lt_of_le_of_lt (Nat.add_le_add_right (distance_le_page steps found) _) there
    · obtain ⟨enough, close⟩ := exists_share_lt (sub_nonneg.mpr most) (sub_lt_self 1 some_weight)
        (speed (events ++ onward last pages interval 0) - goal) some_bound
      refine ⟨enough, fun turns more there => ?_⟩
      have error := (approaches turns there).geometric turns (Nat.le_refl _)
      have least : 0 ≤ share ^ turns := pow_nonneg (sub_nonneg.mpr most) turns
      calc |speed (events ++ onward last pages interval turns) - goal|
        _ = share ^ turns * |speed (events ++ onward last pages interval 0) - goal| := by
            rw [← abs_of_nonneg least, ← abs_mul]
            exact congrArg abs error
        _ < bound := close turns more
  · intro first turns there after
    refine ⟨fun enough reported sum => ?_, fun empty => ⟨?_,
      speed_from_empty some_pages near going usable moves empty there⟩⟩
    · have some_turns : 1 ≤ turns := Nat.le_trans (Tuning.speedWindow_of_validate usable) enough
      have before := steady_onward some_pages near going events some_turns
        (there_of_le (Nat.le_succ _) there)
      have whole := steady_onward some_pages near going events (Nat.succ_pos turns) there
      obtain ⟨last, found, shown, _⟩ := getLast?_report t events first
      refine ⟨run?_onward room reported found shown there sum,
        whole.whole (Nat.succ_le_succ enough), whole.last, fun positive => ?_⟩
      have next : speed (after (turns + 1)) = smooth t (speed (after turns)) goal :=
        (before.fewer enough).speed_succ some_pages near going usable moves there
      rw [next, smooth_of_pos positive]
      ring
    · have alone : (run t (events ++ [.report first])).turns = [first] := by
        rw [run_concat]
        exact congrArg Pace.turns (observe_first t empty first)
      have reported : isTaken (events ++ [.report first]) := by
        refine run?_report taken (fits_of_distance room ?_)
        rw [observe_first t empty]
        exact (by decide : 0 < UInt64.size)
      have found : (run t (events ++ [.report first])).turns.getLast? = some first := by
        rw [alone]
        rfl
      refine run?_onward room reported found rfl there ?_
      · rw [alone]
        exact Nat.lt_of_le_of_lt (Nat.add_le_add_right (Nat.zero_le _) _) there

/-- **Not vacuous**: two pages six seconds apart are ten pages a minute. Then the reader
turns a page every three seconds; five turns later the window is at this pace, twenty pages
a minute, and each turn halves what is missing. -/
theorem cadence_approached_quicker :
    letI : Instruments ℚ := ⟨id, Axes.y⟩
    let t : Tuning ℚ := .standard
    let interval : Duration := .ofParts 3 0
    let second : PageTurn := ⟨1, .ofParts 6 0⟩
    let quick (turns : Nat) : List PaceEvent :=
      [.report ⟨0, 0⟩] ++ [.report second] ++ onward second 1 interval turns
    let later (turns : Nat) := quick 6 ++ onward (second.ahead 1 interval 6) 1 interval turns
    let speed (events : List PaceEvent) : ℚ := (run t events).pagesPerMinute
    speed (quick 0) = 10 ∧
    speed (quick 6) - 20 = 1 / 2 * (speed (quick 5) - 20) ∧
    speed (later 4) - 20 = (1 / 2) ^ 4 * (speed (quick 6) - 20) ∧ speed (later 4) ≤ 20 ∧
    run? t (later 4) = some (run t (later 4)) := by
  intro t interval second quick later speed
  let _ : Instruments ℚ := ⟨id, Axes.y⟩
  have usable : t.validate = .ok t := Tuning.validate_of_rules (by decide +kernel)
  have ten : (steadySpeed 1 (.ofParts 6 0) : ℚ) = 10 := by
    norm_num [steadySpeed, Duration.ofParts, Duration.perSecond]
  have twenty : (steadySpeed 1 interval : ℚ) = 20 := by
    norm_num [steadySpeed, interval, Duration.ofParts, Duration.perSecond]
  have half : (1 : ℚ) - t.speedWeight = 1 / 2 := by decide +kernel
  have room : t.speedWindow.toNat + 1 < UInt64.size := by decide
  have empty : run? t [] = some (run t []) := rfl
  obtain ⟨_, slow⟩ := cadence_approached t usable room 1 (.ofParts 6 0)
    (by decide) (by decide) (by decide) (by decide) [] empty
  have opened : run? t [.report ⟨0, 0⟩] = some (run t [.report ⟨0, 0⟩]) :=
    run?_report empty (fits_of_distance room (by decide +kernel))
  obtain ⟨_, fast⟩ := cadence_approached t usable room 1 interval
    (by decide) (by decide) (by decide) (by decide) [.report ⟨0, 0⟩] opened
  have turned : run? t ([.report ⟨0, 0⟩] ++ [.report second])
      = some (run t ([.report ⟨0, 0⟩] ++ [.report second])) :=
    run?_report opened (fits_of_distance room (by decide +kernel))
  obtain ⟨taken, steps, found, error⟩ :=
    (fast second 5 (by decide)).1 (by decide) turned (by decide +kernel)
  obtain ⟨onwards, _⟩ := cadence_approached t usable room 1 interval
    (by decide) (by decide) (by decide) (by decide) (quick 6) taken
  obtain ⟨approaches, _⟩ := onwards _ steps found (by decide +kernel)
  obtain ⟨taken', four⟩ := approaches 4 (by decide)
  rw [twenty, half] at four
  refine ⟨?_, ?_, ?_, ?_, taken'⟩
  · exact ((slow ⟨0, 0⟩ 0 (by decide)).2 rfl).2.trans ten
  · have error := error (by decide +kernel)
    rwa [twenty, half] at error
  · exact four.geometric 4 (Nat.le_refl _)
  · exact (four.below (by decide +kernel) 4 (Nat.le_refl _)).2

/-- **The largest window takes no page in.** Its tuning is accepted, and two pages six
seconds apart are ten pages a minute; but there is no count for the turns that are kept,
so the first report comes to nothing, and no estimate follows. -/
theorem cadence_cut_short :
    letI : Instruments ℚ := ⟨id, Axes.y⟩
    let full : Tuning ℚ := { Tuning.standard with speedWindow := Count.largest }
    let pages := 1
    let interval : Duration := .ofParts 6 0
    let first : PageTurn := ⟨0, 0⟩
    full.validate = .ok full ∧ pages ≤ full.longestTurn.toNat ∧ interval < full.idleTime ∧
    run? full [] = some .initial ∧ (steadySpeed pages interval : ℚ) = 10 ∧
    run? full [.report first] = none ∧
    ¬ ∃ s, run? full ([.report first] ++ onward first pages interval 1) = some s ∧
      s.pagesPerMinute = steadySpeed pages interval := by
  intro full pages interval first
  let _ : Instruments ℚ := ⟨id, Axes.y⟩
  have standard : (Tuning.standard : Tuning ℚ).validate = .ok .standard :=
    Tuning.validate_of_rules (by decide +kernel)
  have ten : (steadySpeed pages interval : ℚ) = 10 := by
    norm_num [steadySpeed, pages, interval, Duration.ofParts, Duration.perSecond]
  have nothing : run? full [.report first] = none := rfl
  refine ⟨Tuning.validate_unlimited standard (by decide) _, by decide, by decide, rfl, ten,
    nothing, ?_⟩
  rintro ⟨s, made, _⟩
  have cut : run? full ([.report first] ++ onward first pages interval 1) = none := by
    rw [run?, List.foldlM_append, ← run?, nothing]
    rfl
  rw [cut] at made
  cases made

end

end Pace

end ReadAhead
