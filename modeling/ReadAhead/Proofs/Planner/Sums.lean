import Mathlib.Data.List.Chain
import Mathlib.Data.List.Range
import ReadAhead.Numeric.Binary64
import ReadAhead.Proofs.Planner.Load
import ReadAhead.Proofs.Planner.Validation

/-!
  Sums behind the reading speed — which tunings keep them within 64 bits

  The window of page turns has room for one more turn than are measured, and the
  pages that it covers are summed. A turn in the window goes no further than the
  longest turn of the tuning, and no further than from one end of the longest
  document to the other. So the sum is bounded by a product of two settings, and a
  reader who turns between two pages that far apart comes to it.

  Validation bounds neither of the two settings.

  What is proved:
    1. `Pace.Bounded.observe`, `run_paced` — the window never holds more turns, or
       longer ones, than the tuning says.
    2. `run_swing` — a reader who goes back and forth fills the window with turns of
       the same length.
    3. `fits_always_iff` — so every event of every run keeps the sums within 64 bits
       exactly if the number of turns and the product fit.
    4. `fits_always_iff_limits` (anti-vacuity) — the standard tuning, and one with the
       largest window.
    5. `Tuning.validate_unlimited`, `fits_fails_accepted` — tunings are accepted with
       which a page change comes to a sum that does not fit.
-/

namespace ReadAhead

variable {α : Type}

/-- The most pages that a turn in the window can span: no document has a page with
the largest number. -/
def Tuning.widestTurn (t : Tuning α) : Nat := min t.longestTurn.toNat (UInt64.size - 2)

def PageTurn.gap (a b : PageTurn) : Nat := (Count.distance a.page b.page).toNat

theorem PageTurn.gap_eq (a b : PageTurn) :
    a.gap b = (a.page.toNat - b.page.toNat) + (b.page.toNat - a.page.toNat) :=
  Count.toNat_distance a.page b.page

theorem Count.lt_largest {a b : Count} (h : a < b) : a < largest := by
  have most : b.toNat ≤ largest.toNat := Nat.le_sub_one_of_lt b.toNat_lt
  exact UInt64.lt_iff_toNat_lt.mpr (Nat.lt_of_lt_of_le (UInt64.lt_iff_toNat_lt.mp h) most)

theorem Window.push_of_room {capacity : Nat} {window : List α} (room : window.length < capacity)
    (a : α) : push capacity window a = window ++ [a] := by
  rw [push_eq_drop, Nat.sub_eq_zero_of_le room, List.drop_zero]

namespace Pace

/-! ## The pages covered -/

theorem distance_cons_cons (a b : PageTurn) (turns : List PageTurn) :
    distance (a :: b :: turns) = a.gap b + distance (b :: turns) := by
  unfold distance
  rw [List.tail_cons, List.zipWith_cons_cons, List.foldl_cons, Nat.add_comm, List.foldl_assoc]
  rfl

theorem distance_between {turns : List PageTurn} {least most : Nat}
    (near : turns.IsChain fun a b => least ≤ a.gap b ∧ a.gap b ≤ most) :
    (turns.length - 1) * least ≤ distance turns ∧ distance turns ≤ (turns.length - 1) * most := by
  induction turns with
  | nil => exact ⟨Nat.le_of_eq (Nat.zero_mul least), Nat.zero_le _⟩
  | cons a turns ih =>
    cases turns with
    | nil => exact ⟨Nat.le_of_eq (Nat.zero_mul least), Nat.zero_le _⟩
    | cons b turns =>
      obtain ⟨first, rest⟩ := List.isChain_cons_cons.mp near
      have rest := ih rest
      have more (n : Nat) : ((a :: b :: turns).length - 1) * n = n + ((b :: turns).length - 1) * n := by
        rw [List.length_cons, List.length_cons, Nat.add_sub_cancel, Nat.add_sub_cancel,
          Nat.succ_mul, Nat.add_comm]
      rw [distance_cons_cons, more, more]
      exact ⟨Nat.add_le_add first.1 rest.1, Nat.add_le_add first.2 rest.2⟩

/-! ## The window of a run -/

variable {t : Tuning α} {s : Pace α}

/-- What the window of turns keeps to. -/
structure Bounded (t : Tuning α) (s : Pace α) : Prop where
  room : s.turns.length ≤ capacity t
  /-- Where every pause interrupts reading, no two turns stand in the window. -/
  lone : t.idleReset = 0 → s.turns.length ≤ 1
  inside : ∀ turn ∈ s.turns, turn.page < Count.largest
  near : s.turns.IsChain fun a b => a.gap b ≤ t.widestTurn

theorem bounded_empty (t : Tuning α) (empty : s.turns = []) : s.Bounded t where
  room := by simp [empty]
  lone _ := by simp [empty]
  inside turn listed := by simp [empty] at listed
  near := by simp [empty]

variable [Quantity α]

theorem turns_push (t : Tuning α) (s : Pace α) (next : PageTurn) :
    (s.push t next).turns = Window.push (capacity t) s.turns next := by
  unfold push
  dsimp only
  split <;> rfl

theorem Bounded.push (b : s.Bounded t) {next : PageTurn} (inside : next.page < Count.largest)
    (alone : t.idleReset = 0 → s.turns = [])
    (near : ∀ last, s.turns.getLast? = some last → last.gap next ≤ t.widestTurn) :
    (s.push t next).Bounded t where
  room := by
    rw [turns_push]
    exact Window.length_push_le _ _ _
  lone zero := by
    rw [turns_push, Window.push_eq_drop, alone zero]
    exact Nat.le_trans (Nat.le_of_eq List.length_drop) (Nat.sub_le _ _)
  inside turn listed := by
    rw [turns_push, Window.push_eq_drop] at listed
    rcases List.mem_append.mp (List.mem_of_mem_drop listed) with old | new
    · exact b.inside turn old
    · rw [List.mem_singleton.mp new]
      exact inside
  near := by
    rw [turns_push, Window.push_eq_drop]
    refine List.IsChain.drop (List.isChain_append.mpr ⟨b.near, .singleton _, ?_⟩) _
    intro last hlast y hy
    cases hy
    exact near last hlast

/-- **The window keeps to its bounds**, whatever page of a document is shown. -/
theorem Bounded.observe (b : s.Bounded t) {next : PageTurn} (inside : next.page < Count.largest) :
    (s.observe t next).Bounded t := by
  have alone {s' : Pace α} (empty : s'.turns = []) : (s'.push t next).Bounded t :=
    (bounded_empty t empty).push inside (fun _ => empty) (by simp [empty])
  unfold Pace.observe
  split
  · next empty => exact alone (List.getLast?_eq_none_iff.mp empty)
  · next last found =>
    split
    · exact b
    · unfold carry
      split
      · exact alone rfl
      · next going =>
        split
        · exact alone rfl
        · next short =>
          refine b.push inside (fun zero => ?_) (fun last' found' => ?_)
          · -- there is no pause too short to interrupt reading
            have still : t.idleTime = 0 := by
              rw [Tuning.idleTime, zero]
              rfl
            rw [still] at going
            exact absurd (Nat.zero_le _) going
          · cases found.symm.trans found'
            have limit : last.gap next ≤ t.longestTurn.toNat :=
              UInt64.le_iff_toNat_le.mp (UInt64.not_lt.mp short)
            have here := UInt64.lt_iff_toNat_lt.mp (b.inside last (List.mem_of_getLast? found))
            have there := UInt64.lt_iff_toNat_lt.mp inside
            rw [Count.toNat_largest] at here there
            refine Nat.le_min.mpr ⟨limit, ?_⟩
            rw [PageTurn.gap_eq]
            omega

theorem Bounded.fits (b : s.Bounded t) {next : PageTurn} (inside : next.page < Count.largest)
    (room : capacity t < UInt64.size)
    (sum : t.idleReset = 0 ∨ t.speedWindow.toNat * t.widestTurn < UInt64.size) :
    s.fits t next = true := by
  have b' : (s.observe t next).Bounded t := b.observe inside
  have covered : distance (s.observe t next).turns
      ≤ ((s.observe t next).turns.length - 1) * t.widestTurn :=
    (distance_between (b'.near.imp fun _ _ gap => ⟨Nat.zero_le _, gap⟩)).2
  have fit : distance (s.observe t next).turns < UInt64.size := by
    rcases sum with zero | product
    · rw [Nat.sub_eq_zero_of_le (b'.lone zero), Nat.zero_mul] at covered
      exact Nat.lt_of_le_of_lt covered (by decide)
    · have fewer : (s.observe t next).turns.length - 1 ≤ t.speedWindow.toNat :=
        Nat.sub_le_of_le_add b'.room
      exact Nat.lt_of_le_of_lt (Nat.le_trans covered (Nat.mul_le_mul_right _ fewer)) product
  simp [Pace.fits, room, fit]

/-- What it says that a turn to another page fits. -/
theorem sums_of_fits {next : PageTurn} (fits : s.fits t next = true)
    (moves : ∀ last, s.turns.getLast? = some last → last.page ≠ next.page) :
    capacity t < UInt64.size ∧ ((elapsed? (s.observe t next).turns).isSome = true →
      distance (s.observe t next).turns < UInt64.size) := by
  have turned : ((s.turns.getLast?.map (·.page)) == some next.page) = false := by
    cases found : s.turns.getLast? with
    | none => rfl
    | some last => simpa using moves last found
  simp only [Pace.fits, turned, Bool.false_or, Bool.and_eq_true, Bool.or_eq_true,
    decide_eq_true_eq] at fits
  refine ⟨fits.1, fun spans => fits.2.resolve_left fun no_turn => ?_⟩
  rw [Option.isNone_iff_eq_none] at no_turn
  rw [no_turn] at spans
  cases spans

end Pace

namespace Planner

variable {t : Tuning α} {p : Planner α}

/-- A planner whose window of turns keeps to its bounds. -/
structure Paced (t : Tuning α) (p : Planner α) : Prop where
  tuned : p.tuning = t
  bounded : p.pace.Bounded t

variable [Quantity α]

theorem start_paced (t : Tuning α) : (start t).Paced t := ⟨rfl, Pace.bounded_empty t rfl⟩

theorem Paced.turn (h : p.Paced t) (now : Duration) {page pageCount : Count}
    (inside : page < pageCount) : (p.turn now page pageCount).Paced t where
  tuned := h.tuned
  bounded := by
    show (p.pace.observe p.tuning ⟨page, now⟩).Bounded t
    rw [h.tuned]
    exact h.bounded.observe (Count.lt_largest inside)

theorem Paced.replan (h : p.Paced t) : p.replan.Paced t := by
  rw [replan_frame]
  exact ⟨h.tuned, h.bounded⟩

omit [Quantity α] in
theorem Paced.endLoad (h : p.Paced t) : p.endLoad.Paced t := ⟨h.tuned, h.bounded⟩

theorem Paced.showPage (h : p.Paced t) (now : Duration) (page pageCount : Count) :
    (p.showPage now page pageCount).Paced t :=
  showPage_induction h now (fun inside => h.turn now inside) Paced.endLoad Paced.replan

omit [Quantity α] in
theorem Paced.overload (h : p.Paced t) (now : Duration) : (p.overload now).Paced t := by
  unfold Planner.overload
  dsimp only
  split <;> exact ⟨h.tuned, h.bounded⟩

/-- **Every event keeps the window within its bounds.** -/
theorem Paced.apply (h : p.Paced t) (now : Duration) (event : PlannerEvent α) :
    (p.apply now event).Paced t := by
  cases event with
  | page page pageCount => exact h.showPage now page pageCount
  | frame interval =>
    show (p.observeFrame now interval).Paced t
    rcases p.observeFrame_cases now interval with ⟨_, _, _, eq⟩ | ⟨_, frames, stream, eq⟩
    · rw [eq]
      exact ⟨h.tuned, h.bounded⟩
    · have measured : Paced t { p with
          frames := frames, streams := { p.streams with frameInterval := stream } } :=
        ⟨h.tuned, h.bounded⟩
      rw [eq]
      exact measured.overload now
  | tilt acceleration =>
    show (p.observeTilt acceleration).Paced t
    obtain ⟨_, _, _, _, eq, _⟩ := p.observeTilt_frame acceleration
    rw [eq]
    exact ⟨h.tuned, h.bounded⟩
  | reset => exact ⟨h.tuned, Pace.bounded_empty t rfl⟩

theorem run_paced (t : Tuning α) (events : List (Duration × PlannerEvent α)) :
    ((start t).run events).Paced t := by
  have kept {p : Planner α} (h : p.Paced t) : (p.run events).Paced t := by
    unfold run
    induction events generalizing p with
    | nil => exact h
    | cons event events ih => exact ih (h.apply event.1 event.2)
  exact kept (start_paced t)

/-! ## A reader who goes back and forth -/

/-- The page after so many turns between the first page and another one. -/
def side (far : Count) (turns : Nat) : Count := if turns % 2 = 0 then 0 else far

/-- Turns between the first page and another one, each a nanosecond after the one
before. -/
def swing (far : Count) (turns : Nat) : List PageTurn :=
  (List.range turns).map fun i => ⟨side far i, i⟩

/-- The page changes of such a reader, in the longest document. -/
def swinging (far : Count) (turns : Nat) : List (Duration × PlannerEvent α) :=
  (List.range turns).map fun i => (i, .page (side far i) Count.largest)

theorem swing_succ (far : Count) (turns : Nat) :
    swing far (turns + 1) = swing far turns ++ [⟨side far turns, turns⟩] := by
  rw [swing, List.range_succ, List.map_append]
  rfl

theorem swing_last (far : Count) (turns : Nat) :
    (swing far (turns + 1)).getLast? = some ⟨side far turns, turns⟩ := by
  rw [swing_succ, List.getLast?_concat]

theorem elapsed_swing (far : Count) (turns : Nat) :
    (Pace.elapsed? (swing far (turns + 2))).isSome = true := by
  have first : (swing far (turns + 2)).head? = some ⟨side far 0, 0⟩ := by
    rw [swing, List.head?_map, List.head?_range, if_neg (Nat.succ_ne_zero _)]
    rfl
  have later : (0 : Duration) < turns + 1 := Nat.succ_pos turns
  simp only [Pace.elapsed?, first, swing_last, Option.bind_eq_bind, Option.bind_some, if_pos later,
    Option.isSome_some]

theorem side_lt {far : Count} (inside : far < Count.largest) (turns : Nat) :
    side far turns < Count.largest := by
  unfold side
  split
  · decide
  · exact inside

theorem gap_side (far : Count) (turns : Nat) (moment moment' : Duration) :
    PageTurn.gap ⟨side far turns, moment⟩ ⟨side far (turns + 1), moment'⟩ = far.toNat := by
  rw [PageTurn.gap_eq]
  rcases Nat.mod_two_eq_zero_or_one turns with even | odd
  · have odd : (turns + 1) % 2 = 1 := by omega
    simp [side, even, odd]
  · have even : (turns + 1) % 2 = 0 := by omega
    simp [side, even, odd]

theorem distance_swing (far : Count) (turns : Nat) :
    turns * far.toNat ≤ Pace.distance (swing far (turns + 1)) := by
  have gaps : (swing far (turns + 1)).IsChain fun a b =>
      far.toNat ≤ a.gap b ∧ a.gap b ≤ far.toNat := by
    rw [swing, List.isChain_map, List.isChain_range_succ]
    intro i _
    have gap := gap_side far i i (i + 1)
    exact ⟨Nat.le_of_eq gap.symm, Nat.le_of_eq gap⟩
  have covered := (Pace.distance_between gaps).1
  rwa [swing, List.length_map, List.length_range, Nat.add_sub_cancel] at covered

variable {far : Count}

theorem side_moves (away : far ≠ 0) (turns : Nat) : side far turns ≠ side far (turns + 1) := by
  intro same
  have gap := gap_side far turns 0 0
  rw [PageTurn.gap_eq, same, Nat.sub_self] at gap
  exact away (UInt64.toNat_inj.mp gap.symm)

theorem observe_swing {s : Pace α} {turns : Nat} (away : far ≠ 0) (near : far ≤ t.longestTurn)
    (pauses : t.idleReset ≠ 0) (room : turns < Pace.capacity t) (swung : s.turns = swing far turns) :
    (s.observe t ⟨side far turns, turns⟩).turns = swing far (turns + 1) := by
  have length : s.turns.length < Pace.capacity t := by
    rwa [swung, swing, List.length_map, List.length_range]
  have added : (s.push t ⟨side far turns, turns⟩).turns = swing far (turns + 1) := by
    rw [Pace.turns_push, Window.push_of_room length, swung, swing_succ]
  cases turns with
  | zero =>
    rw [Pace.observe, swung]
    exact added
  | succ before =>
    have last : s.turns.getLast? = some ⟨side far before, before⟩ := by
      rw [swung, swing_last]
    have goes_on : ¬ t.idleTime ≤ before + 1 - before := by
      have milli : 0 < t.idleReset.toNat :=
        Nat.pos_of_ne_zero fun zero => pauses (UInt64.toNat_inj.mp zero)
      show ¬ t.idleReset.toNat * Duration.perMilli ≤ before + 1 - before
      rw [Duration.perMilli]
      omega
    have short : ¬ t.longestTurn < Count.distance (side far before) (side far (before + 1)) := by
      rw [UInt64.not_lt, UInt64.le_iff_toNat_le]
      exact Nat.le_trans (Nat.le_of_eq (gap_side far before before (before + 1)))
        (UInt64.le_iff_toNat_le.mp near)
    have kept : s.carry t ⟨side far before, before⟩ ⟨side far (before + 1), before + 1⟩ = s := by
      rw [Pace.carry, if_neg goes_on, if_neg short]
    rw [Pace.observe, last]
    dsimp only
    rw [if_neg (side_moves away before), kept]
    exact added

/-- **The turns back and forth are all in the window**, as long as there is room. -/
theorem run_swing (inside : far < Count.largest) (away : far ≠ 0) (near : far ≤ t.longestTurn)
    (pauses : t.idleReset ≠ 0) {turns : Nat} (room : turns ≤ Pace.capacity t) :
    ((start t).run (swinging far turns)).pace.turns = swing far turns := by
  induction turns with
  | zero => rfl
  | succ turns ih =>
    have before := ih (Nat.le_of_succ_le room)
    have tuned := (run_paced t (swinging far turns)).tuned
    have last : (start t).run (swinging far (turns + 1))
        = ((start t).run (swinging far turns)).showPage turns (side far turns) Count.largest := by
      rw [swinging, List.range_succ, List.map_append, run, List.foldl_append]
      rfl
    rw [last, (showPage_updates _ _ (side_lt inside turns)).2.1, tuned]
    exact observe_swing away near pauses room before

/-! ## When the sums fit -/

theorem fits_page (p : Planner α) (now : Duration) {page pageCount : Count}
    (inside : page < pageCount) :
    p.fits now (.page page pageCount) = p.pace.fits p.tuning ⟨page, now⟩ := by
  simp [fits, UInt64.not_le.mpr inside]

theorem Paced.fits (h : p.Paced t) (room : Pace.capacity t < UInt64.size)
    (sum : t.idleReset = 0 ∨ t.speedWindow.toNat * t.widestTurn < UInt64.size) (now : Duration)
    (event : PlannerEvent α) : p.fits now event = true := by
  cases event with
  | page page pageCount =>
    by_cases inside : page < pageCount
    · rw [fits_page _ _ inside, h.tuned]
      exact h.bounded.fits (Count.lt_largest inside) room sum
    · simp [Planner.fits, UInt64.not_lt.mp inside]
  | frame interval => rfl
  | tilt acceleration => rfl
  | reset => rfl

/-- Where the sums fit, they fit for a reader who goes back and forth until the window
is full. -/
theorem product_of_fits (all : ∀ events now event, ((start t).run events).fits now event = true)
    (pauses : t.idleReset ≠ 0) : t.speedWindow.toNat * t.widestTurn < UInt64.size := by
  have below : t.widestTurn < UInt64.size := Nat.lt_of_le_of_lt (Nat.min_le_right _ _) (by decide)
  have wide : (UInt64.ofNat t.widestTurn).toNat = t.widestTurn := UInt64.toNat_ofNat_of_lt' below
  generalize UInt64.ofNat t.widestTurn = far at wide
  cases turns : t.speedWindow.toNat with
  | zero =>
    rw [Nat.zero_mul]
    decide
  | succ turns' =>
    by_cases away : far = 0
    · rw [← wide, away]
      exact (by decide : 0 < UInt64.size)
    · have inside : far < Count.largest := by
        rw [UInt64.lt_iff_toNat_lt, wide]
        exact Nat.lt_of_le_of_lt (Nat.min_le_right _ _) (by decide)
      have near : far ≤ t.longestTurn := by
        rw [UInt64.le_iff_toNat_le, wide]
        exact Nat.min_le_left _ _
      have room : turns' + 1 < Pace.capacity t := by
        rw [Pace.capacity, turns]
        exact Nat.lt_succ_self _
      have swung := run_swing inside away near pauses (Nat.le_of_lt room)
      have full := observe_swing away near pauses room swung
      have fits := all (swinging far (turns' + 1)) (turns' + 1)
        (.page (side far (turns' + 1)) Count.largest)
      rw [fits_page _ _ (side_lt inside _), (run_paced t _).tuned] at fits
      have sums := (Pace.sums_of_fits fits (by
        intro last found
        rw [swung, swing_last] at found
        cases found
        exact side_moves away turns')).2
      rw [full] at sums
      calc (turns' + 1) * t.widestTurn
        _ = (turns' + 1) * far.toNat := by rw [wide]
        _ ≤ Pace.distance (swing far (turns' + 2)) := distance_swing far (turns' + 1)
        _ < UInt64.size := sums (elapsed_swing far turns')

/-- **The sums behind the reading speed fit exactly within two limits.** Whatever the
tuning: every event of every run, at whatever moments, keeps them within 64 bits if and
only if the number of turns leaves room for one more, and that many of the widest turns
do, unless every pause interrupts reading. -/
theorem fits_always_iff (t : Tuning α) :
    (∀ events now event, ((start t).run events).fits now event = true) ↔
      t.speedWindow.toNat + 1 < UInt64.size ∧
      (t.idleReset = 0 ∨
        t.speedWindow.toNat * min t.longestTurn.toNat (UInt64.size - 2) < UInt64.size) := by
  refine ⟨fun all => ⟨?_, ?_⟩, fun ⟨room, sum⟩ events now event => ?_⟩
  · have first := all [] 0 (.page 0 1)
    rw [fits_page _ _ (by decide)] at first
    exact (Pace.sums_of_fits first nofun).1
  · by_cases pauses : t.idleReset = 0
    · exact .inl pauses
    · exact .inr (product_of_fits all pauses)
  · exact (run_paced t events).fits room sum now event

/-- **Not vacuous**: every event fits the standard tuning, and not every one fits a
tuning with the largest window. -/
theorem fits_always_iff_limits :
    (∀ events now event, ((start (.standard : Tuning Float)).run events).fits now event = true) ∧
    ¬ ∀ events now event,
      ((start { (.standard : Tuning Float) with speedWindow := Count.largest }).run events).fits
        now event = true := by
  refine ⟨(fits_always_iff _).mpr ⟨by decide, .inr (by decide)⟩, fun all => ?_⟩
  exact absurd ((fits_always_iff _).mp all).1 (by decide)

end Planner

/-! ## What validation accepts -/

/-- **Validation limits neither the number of turns nor their width**: in a tuning that
is accepted they can be any. -/
theorem Tuning.validate_unlimited [Quantity α] {t : Tuning α} (usable : t.validate = .ok t)
    {window : Count} (nonzero : window ≠ 0) (turn : Count) :
    let t' := { t with speedWindow := window, longestTurn := turn }
    t'.validate = .ok t' := by
  intro t'
  have kept : ∀ rule ∈ rules, rule.2 t = true := fun rule listed => rule_of_validate usable listed
  refine validate_of_rules ?_
  simp only [rules, List.forall_mem_cons, List.not_mem_nil, false_implies, implies_true,
    and_true] at kept ⊢
  obtain ⟨frames, late, run, longest, _, others⟩ := kept
  exact ⟨frames, late, run, longest, bne_iff_ne.mpr nonzero, others⟩

/-- **An accepted tuning need not fit**: with the largest window the first page comes to
a sum that does not fit, and with the widest turn the third one does, on the way back
from the end of the longest document. -/
theorem Planner.fits_fails_accepted :
    let full : Tuning Float := { Tuning.standard with speedWindow := Count.largest }
    let wide : Tuning Float := { Tuning.standard with longestTurn := Count.largest }
    full.validate = .ok full ∧ (start full).fits 0 (.page 0 10) = false ∧
    wide.validate = .ok wide ∧
    ((start wide).run [(0, .page 0 Count.largest), (1, .page (Count.largest - 1) Count.largest)]).fits
      2 (.page 0 Count.largest) = false := by
  have usable : (Tuning.standard : Tuning Float).validate = .ok .standard :=
    Tuning.validate_of_rules (by decide +kernel)
  refine ⟨Tuning.validate_unlimited usable (by decide) _, by decide +kernel,
    Tuning.validate_unlimited usable (by decide) _, by decide +kernel⟩

end ReadAhead
