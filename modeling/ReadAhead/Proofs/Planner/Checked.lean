import ReadAhead.Proofs.Planner.SpeedWindow

/-!
  Checked sums — what is proved over natural numbers, carried to 64 bits

  The estimator of the reading speed adds up counts. Everything else that is proved of a
  planner is about `Planner.run`, where these sums are natural numbers and always are
  there. Here both readings are compared: with sums in 64 bits a planner does the same as
  long as they fit, and comes to nothing where one does not.

  What is proved:
    1. `Pace.distance?_eq` — a chain of checked additions loses nothing, and fails only if
       the whole sum does not fit.
    2. `Pace.accept?_eq`, `Planner.step?_eq` — what a step is where it fits.
    3. `Planner.run?_eq` — a run with checked sums is the run with natural numbers if
       each of its events fits, and nothing otherwise.
    4. `Pace.distance_observe_le` — a page that is shown adds no more to the sum than the
       pages up to it.
    5. `Planner.run?_of_limits` — within the two limits of a tuning, every run is there.
    6. `Pace.run?_concat`, `Planner.run?_pace` — the estimator of a planner, with checked
       sums.
-/

namespace ReadAhead

/-! ## Checked additions -/

namespace Count

theorem ofNat?_eq_some_iff {n : Nat} {c : Count} : ofNat? n = some c ↔ c.toNat = n := by
  unfold ofNat?
  split
  · next fits =>
    have whole : (UInt64.ofNat n).toNat = n := UInt64.toNat_ofNat_of_lt' fits
    rw [Option.some.injEq, ← UInt64.toNat_inj, whole]
    exact eq_comm
  · next large =>
    refine iff_of_false nofun fun same => large ?_
    rw [← same]
    exact c.toNat_lt

theorem ofNat?_eq_none_iff {n : Nat} : ofNat? n = none ↔ UInt64.size ≤ n := by
  unfold ofNat?
  split
  · next fits => exact iff_of_false nofun (Nat.not_le_of_lt fits)
  · next large => exact iff_of_true rfl (Nat.le_of_not_lt large)

theorem le_total (counts : List Count) (n : Nat) :
    n ≤ counts.foldl (fun n c => n + c.toNat) n := by
  induction counts generalizing n with
  | nil => exact Nat.le_refl n
  | cons c counts ih => exact Nat.le_trans (Nat.le_add_right _ _) (ih _)

/-- **Adding up counts one by one comes to their sum, if this is a count.** -/
theorem foldlM_add? (counts : List Count) (c : Count) :
    counts.foldlM add? c = ofNat? (counts.foldl (fun n c => n + c.toNat) c.toNat) := by
  induction counts generalizing c with
  | nil => exact (ofNat?_eq_some_iff.mpr rfl).symm
  | cons d counts ih =>
    rw [List.foldlM_cons, List.foldl_cons]
    cases added : add? c d with
    | some sum =>
      rw [← ofNat?_eq_some_iff.mp added]
      exact ih sum
    | none =>
      -- what is too large already stays so
      have large : UInt64.size ≤ c.toNat + d.toNat := ofNat?_eq_none_iff.mp added
      exact (ofNat?_eq_none_iff.mpr (Nat.le_trans large (le_total counts _))).symm

end Count

/-! ## The estimator -/

namespace Pace

variable {α : Type} {t : Tuning α} {s : Pace α} {next : PageTurn}

theorem distance?_eq (turns : List PageTurn) : distance? turns = Count.ofNat? (distance turns) := by
  have gaps : turns.zipWith (fun a b => (Count.distance a.page b.page).toNat) turns.tail
      = (turns.zipWith (fun a b => Count.distance a.page b.page) turns.tail).map UInt64.toNat :=
    List.map_zipWith.symm
  rw [distance?, Count.foldlM_add?, distance, gaps, List.foldl_map]
  rfl

theorem capacity?_eq (t : Tuning α) : capacity? t = Count.ofNat? (capacity t) := rfl

/-- Whether the sums fit that are needed for such a window. -/
def sumsFit (t : Tuning α) (turns : List PageTurn) : Bool :=
  capacity t < UInt64.size && ((elapsed? turns).isNone || distance turns < UInt64.size)

variable [Quantity α]

theorem push?_eq (t : Tuning α) (s : Pace α) (next : PageTurn) :
    s.push? t next = if sumsFit t (s.push t next).turns then some (s.push t next) else none := by
  rw [push?, turns_push, sumsFit, capacity?_eq]
  cases found : Count.ofNat? (capacity t) with
  | none =>
    have full := Nat.not_lt_of_le (Count.ofNat?_eq_none_iff.mp found)
    simp [full]
  | some room =>
    have room : room.toNat = capacity t := Count.ofNat?_eq_some_iff.mp found
    have fits : capacity t < UInt64.size := room ▸ UInt64.toNat_lt _
    rw [push, Option.bind_eq_bind, Option.bind_some, room, decide_eq_true fits, Bool.true_and]
    dsimp only
    cases spanned : elapsed? (Window.push (capacity t) s.turns next) with
    | none => simp [measured?, spanned]
    | some d =>
      rw [measured?, spanned, distance?_eq]
      cases sum : Count.ofNat? (distance (Window.push (capacity t) s.turns next)) with
      | none =>
        have large := Nat.not_lt_of_le (Count.ofNat?_eq_none_iff.mp sum)
        simp [large]
      | some pages =>
        have pages : pages.toNat = distance (Window.push (capacity t) s.turns next) :=
          Count.ofNat?_eq_some_iff.mp sum
        have small : distance (Window.push (capacity t) s.turns next) < UInt64.size :=
          pages ▸ UInt64.toNat_lt _
        simp [pages, small]

/-- **A page that is shown, with checked sums**: it is taken in if they fit. -/
theorem accept?_eq (t : Tuning α) (s : Pace α) (next : PageTurn) :
    s.accept? t next = if s.fits t next then some (s.observe t next) else none := by
  cases found : s.turns.getLast? with
  | none =>
    have shown : s.observe t next = s.push t next := by rw [observe, found]
    have fit : s.fits t next = sumsFit t (s.push t next).turns := by
      rw [fits, found, shown]
      rfl
    rw [accept?, found, fit, shown]
    exact push?_eq t s next
  | some last =>
    by_cases same : last.page = next.page
    · have fit : s.fits t next = true := by simp [fits, found, same]
      rw [accept?, found, fit, observe_again found same]
      exact if_pos same
    · have shown : s.observe t next = (s.carry t last next).push t next := by
        rw [observe, found]
        exact if_neg same
      have fit : s.fits t next = sumsFit t ((s.carry t last next).push t next).turns := by
        simp [fits, sumsFit, found, same, shown]
      rw [accept?, found, fit, shown]
      exact (if_neg same).trans (push?_eq t _ next)

theorem accept?_of_fits (fits : s.fits t next = true) :
    s.accept? t next = some (s.observe t next) := by
  rw [accept?_eq, if_pos fits]

/-! ### How the sum of pages grows -/

theorem distance_tail_le (turn : PageTurn) (turns : List PageTurn) :
    distance turns ≤ distance (turn :: turns) := by
  cases turns with
  | nil => exact Nat.zero_le _
  | cons next turns =>
    rw [distance_cons_cons]
    exact Nat.le_add_left _ _

theorem distance_drop_le (turns : List PageTurn) (k : Nat) :
    distance (turns.drop k) ≤ distance turns := by
  induction turns generalizing k with
  | nil => rw [List.drop_nil]
  | cons turn turns ih =>
    cases k with
    | zero => exact Nat.le_refl _
    | succ k => exact Nat.le_trans (ih k) (distance_tail_le turn turns)

theorem distance_concat {turns : List PageTurn} {last : PageTurn}
    (found : turns.getLast? = some last) (next : PageTurn) :
    distance (turns ++ [next]) = distance turns + last.gap next := by
  induction turns with
  | nil => cases found
  | cons a turns ih =>
    cases turns with
    | nil =>
      cases found
      exact (distance_cons_cons a next []).trans (Nat.add_comm _ _)
    | cons b turns =>
      rw [List.getLast?_cons_cons] at found
      rw [List.cons_append, List.cons_append, distance_cons_cons, distance_cons_cons,
        ← List.cons_append, ih found, Nat.add_assoc]

theorem distance_observe_le (t : Tuning α) {last : PageTurn} (found : s.turns.getLast? = some last)
    (next : PageTurn) :
    distance (s.observe t next).turns ≤ distance s.turns + last.gap next := by
  have pushed (s' : Pace α) : distance (s'.push t next).turns ≤ distance (s'.turns ++ [next]) := by
    rw [turns_push, Window.push_eq_drop]
    exact distance_drop_le _ _
  have alone {s' : Pace α} (empty : s'.turns = []) : distance (s'.push t next).turns ≤ 0 := by
    have least := pushed s'
    rw [empty] at least
    exact least
  rw [observe, found]
  dsimp only
  split
  · exact Nat.le_add_right _ _
  · rw [carry]
    split
    · exact Nat.le_trans (alone rfl) (Nat.zero_le _)
    · split
      · exact Nat.le_trans (alone rfl) (Nat.zero_le _)
      · rw [← distance_concat found]
        exact pushed s

theorem fits_of_distance (room : t.speedWindow.toNat + 1 < UInt64.size)
    (small : distance (s.observe t next).turns < UInt64.size) : s.fits t next = true := by
  have room : capacity t < UInt64.size := room
  simp [fits, room, small]

/-! ### Runs -/

def step? (t : Tuning α) (s : Pace α) : PaceEvent → Option (Pace α)
  | .report turn => s.accept? t turn
  | .reset => some .initial

def run? (t : Tuning α) (events : List PaceEvent) : Option (Pace α) :=
  events.foldlM (step? t) .initial

theorem run?_concat (t : Tuning α) (events : List PaceEvent) (event : PaceEvent) :
    run? t (events ++ [event]) = (run? t events).bind (·.step? t event) := by
  rw [run?, List.foldlM_append]
  simp only [List.foldlM_cons, List.foldlM_nil, bind_pure]
  rfl

theorem run?_report {events : List PaceEvent} (made : run? t events = some (run t events))
    (fits : (run t events).fits t next = true) :
    run? t (events ++ [.report next]) = some (run t (events ++ [.report next])) := by
  rw [run?_concat, made, run_concat]
  exact accept?_of_fits fits

end Pace

/-! ## The planner -/

namespace Planner

variable {α : Type} [Quantity α] {t : Tuning α}

/-- **What an event comes to with checked sums**: the same, if they fit. -/
theorem step?_eq (p : Planner α) (now : Duration) (event : PlannerEvent α) :
    p.step? now event = if p.fits now event then some (p.apply now event) else none := by
  cases event with
  | page page pageCount =>
    by_cases inside : page < pageCount
    · have outside := UInt64.not_le.mpr inside
      rw [fits_page p now inside]
      show p.showPage? now page pageCount = if _ then some (p.showPage now page pageCount) else _
      rw [showPage?, showPage, if_neg outside, if_neg outside, Pace.accept?_eq]
      split <;> rfl
    · have outside := UInt64.not_lt.mp inside
      show p.showPage? now page pageCount = if p.fits now (.page page pageCount) then
        some (p.showPage now page pageCount) else none
      rw [showPage?, showPage, if_pos outside, if_pos outside]
      simp [fits, outside]
  | frame interval => rfl
  | tilt acceleration => rfl
  | reset => rfl

/-- Whether every one of some events fits, when it comes. -/
def fitsAll (p : Planner α) : List (Duration × PlannerEvent α) → Bool
  | [] => true
  | (now, event) :: events => p.fits now event && (p.apply now event).fitsAll events

/-- **A run with checked sums** is the run with natural numbers if every event fits, and
comes to nothing otherwise. -/
theorem run?_eq (p : Planner α) (events : List (Duration × PlannerEvent α)) :
    p.run? events = if p.fitsAll events then some (p.run events) else none := by
  unfold run? run
  induction events generalizing p with
  | nil => rfl
  | cons event events ih =>
    obtain ⟨now, event⟩ := event
    rw [List.foldlM_cons, List.foldl_cons, fitsAll]
    dsimp only
    rw [step?_eq]
    cases fits : p.fits now event with
    | true => exact ih (p.apply now event)
    | false => rfl

theorem Paced.fitsAll {p : Planner α} (h : p.Paced t) (room : Pace.capacity t < UInt64.size)
    (sum : t.idleReset = 0 ∨ t.speedWindow.toNat * t.widestTurn < UInt64.size)
    (events : List (Duration × PlannerEvent α)) : p.fitsAll events = true := by
  induction events generalizing p with
  | nil => rfl
  | cons event events ih =>
    rw [Planner.fitsAll, h.fits room sum, ih (h.apply event.1 event.2), Bool.and_self]

/-- **Within two limits of the tuning no run is cut short**: what is proved of the run
with natural numbers is true of the one with checked sums. -/
theorem run?_of_limits (room : t.speedWindow.toNat + 1 < UInt64.size)
    (sum : t.idleReset = 0 ∨
      t.speedWindow.toNat * min t.longestTurn.toNat (UInt64.size - 2) < UInt64.size)
    (events : List (Duration × PlannerEvent α)) :
    (start t).run? events = some ((start t).run events) := by
  rw [run?_eq, (start_paced t).fitsAll room sum, if_pos rfl]

theorem pace_step? {p : Planner α} {now : Duration} {event : PlannerEvent α}
    (fits : p.fits now event = true) :
    match paceEvent? (now, event) with
    | none => (p.apply now event).pace = p.pace
    | some taken => p.pace.step? p.tuning taken = some (p.apply now event).pace := by
  have pace := p.pace_apply now event
  cases event with
  | page page pageCount =>
    by_cases inside : page < pageCount
    · simp only [paceEvent?, if_pos inside] at pace ⊢
      rw [fits_page p now inside] at fits
      rw [pace]
      exact Pace.accept?_of_fits fits
    · simp only [paceEvent?, if_neg inside] at pace ⊢
      exact pace
  | frame interval => exact pace
  | tilt acceleration => exact pace
  | reset => rfl

/-- **The estimator of a planner, with checked sums**: it takes in pages and resets. -/
theorem Paced.foldlM_pace {p : Planner α} (h : p.Paced t)
    {events : List (Duration × PlannerEvent α)} (fits : p.fitsAll events = true) :
    (events.filterMap paceEvent?).foldlM (Pace.step? t) p.pace = some (p.run events).pace := by
  induction events generalizing p with
  | nil => rfl
  | cons event events ih =>
    obtain ⟨now, event⟩ := event
    rw [Planner.fitsAll, Bool.and_eq_true] at fits
    have taken := pace_step? fits.1
    have rest : (events.filterMap paceEvent?).foldlM (Pace.step? t) (p.apply now event).pace
        = some (p.run ((now, event) :: events)).pace := ih (h.apply now event) fits.2
    cases what : paceEvent? (now, event) with
    | none =>
      simp only [what] at taken
      rw [List.filterMap_cons_none what, ← taken]
      exact rest
    | some event' =>
      simp only [what, h.tuned] at taken
      rw [List.filterMap_cons_some what, List.foldlM_cons, taken]
      exact rest

theorem run?_pace (t : Tuning α) {events : List (Duration × PlannerEvent α)} {p : Planner α}
    (made : (start t).run? events = some p) :
    Pace.run? t (events.filterMap paceEvent?) = some p.pace := by
  rw [run?_eq] at made
  split at made
  · next fits =>
    cases made
    exact (start_paced t).foldlM_pace fits
  · cases made

end Planner

end ReadAhead
