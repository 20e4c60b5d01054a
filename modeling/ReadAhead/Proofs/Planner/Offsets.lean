import Mathlib.Data.List.Forall2
import ReadAhead.Proofs.Planner.Plan
import ReadAhead.Proofs.Planner.Sums

/-!
  Offsets — only differences of time and of page numbers matter

  Two planners are put side by side. What happens to one happens to the other as well,
  with every clock reading and every page number moved by a fixed offset, forward or
  back, in exact integers (`Offset.Move`). What they remember corresponds in the same
  way (`Offset.Parallel`), and no decision tells them apart. How often their outputs
  have changed before does not matter for that.

  What is proved:
    1. `Reading.observe`, `Place.lookaheadPages` — the reading speed depends on
       differences only, and the pages to prefetch move with the page shown.
    2. `Parallel.apply`, `Timed.run` — corresponding events keep two planners parallel.
    3. `offsets_cancel` — so runs that are moved as a whole have the same outputs, but
       for the pages to prefetch, which move along.
    4. `offsets_cancel_far` (anti-vacuity) — the same pages in a short document and in
       the longest there is, half a century later.
-/

namespace ReadAhead

section
variable {α β : Type} {R : α → β → Prop} {l : List α} {l' : List β}

theorem rel_head (h : l.Forall₂ R l') : Option.Rel R l.head? l'.head? := by
  cases h with
  | nil => exact .none
  | cons first _ => exact .some first

theorem rel_getLast (h : l.Forall₂ R l') : Option.Rel R l.getLast? l'.getLast? := by
  rw [List.getLast?_eq_head?_reverse, List.getLast?_eq_head?_reverse]
  exact rel_head (List.forall₂_reverse_iff.mpr h)

end

/-- How far one planner is ahead of another, or behind it. -/
structure Offset where
  /-- In nanoseconds. -/
  time : Int
  pages : Int

namespace Offset

/-- Moments that are so far apart. -/
def Moment (o : Offset) (moment moment' : Nat) : Prop := (moment' : Int) = moment + o.time

/-- Page numbers that are so far apart. -/
def Page (o : Offset) (page page' : Count) : Prop := (page'.toNat : Int) = page.toNat + o.pages

/-- Turns to pages that are so far apart, at moments that are. -/
structure Turn (o : Offset) (turn turn' : PageTurn) : Prop where
  page : o.Page turn.page turn'.page
  moment : o.Moment turn.moment turn'.moment

/-- Positions inside of documents that begin so far apart. -/
structure Place (o : Offset) (position position' : Position) : Prop where
  inside : position.page < position.pageCount
  page : o.Page position.page position'.page
  pageCount : o.Page position.pageCount position'.pageCount

variable {o : Offset}

/-! ## Pages and moments -/

theorem Page.le_iff {a a' b b' : Count} (ha : o.Page a a') (hb : o.Page b b') :
    a' ≤ b' ↔ a ≤ b := by
  unfold Page at ha hb
  rw [UInt64.le_iff_toNat_le, UInt64.le_iff_toNat_le]
  omega

theorem Page.eq_iff {a a' b b' : Count} (ha : o.Page a a') (hb : o.Page b b') :
    a' = b' ↔ a = b := by
  unfold Page at ha hb
  rw [← UInt64.toNat_inj, ← UInt64.toNat_inj]
  omega

theorem Moment.lt_iff {a a' b b' : Nat} (ha : o.Moment a a') (hb : o.Moment b b') :
    a' < b' ↔ a < b := by
  unfold Moment at ha hb
  omega

theorem Moment.sub_eq {a a' b b' : Nat} (ha : o.Moment a a') (hb : o.Moment b b') :
    a' - b' = a - b := by
  unfold Moment at ha hb
  omega

theorem Turn.gap_eq {a a' b b' : PageTurn} (ha : o.Turn a a') (hb : o.Turn b b') :
    a'.gap b' = a.gap b := by
  have here := ha.page
  have there := hb.page
  unfold Page at here there
  rw [PageTurn.gap_eq, PageTurn.gap_eq]
  omega

/-! ## Reading speed -/

variable {turns turns' : List PageTurn}

theorem distance_eq (h : turns.Forall₂ o.Turn turns') :
    Pace.distance turns' = Pace.distance turns := by
  induction h with
  | nil => rfl
  | cons first rest ih =>
    cases rest with
    | nil => rfl
    | cons second rest =>
      rw [Pace.distance_cons_cons, Pace.distance_cons_cons, first.gap_eq second, ih]

theorem elapsed_eq (h : turns.Forall₂ o.Turn turns') :
    Pace.elapsed? turns' = Pace.elapsed? turns := by
  have head := rel_head h
  have last := rel_getLast h
  unfold Pace.elapsed?
  -- both look-ups are taken apart in both windows at once
  generalize turns.head? = first at head ⊢
  generalize turns'.head? = first' at head ⊢
  generalize turns.getLast? = final at last ⊢
  generalize turns'.getLast? = final' at last ⊢
  cases head with
  | none => rfl
  | @some first first' head =>
    cases last with
    | none => rfl
    | @some final final' last =>
      have order : first'.moment < final'.moment ↔ first.moment < final.moment :=
        head.moment.lt_iff last.moment
      show (if first'.moment < final'.moment then some (final'.moment - first'.moment) else none)
        = if first.moment < final.moment then some (final.moment - first.moment) else none
      rw [last.moment.sub_eq head.moment]
      simp only [order]

section
variable {α : Type} [Quantity α]

/-- Estimates of the reading speed that are the same, from turns that are so far
apart. -/
structure Reading (o : Offset) (s s' : Pace α) : Prop where
  speed : s'.pagesPerMinute = s.pagesPerMinute
  turns : s.turns.Forall₂ o.Turn s'.turns

variable {s s' : Pace α} {next next' : PageTurn}

theorem Reading.push (h : o.Reading s s') (hn : o.Turn next next') (t : Tuning α) :
    o.Reading (s.push t next) (s'.push t next') := by
  have turns : (Window.push (Pace.capacity t) s.turns next).Forall₂ o.Turn
      (Window.push (Pace.capacity t) s'.turns next') := by
    rw [Window.push_eq_drop, Window.push_eq_drop, h.turns.length_eq]
    exact List.forall₂_drop _ (List.rel_append h.turns (.cons hn .nil))
  have measured : Pace.measured? (α := α) (Window.push (Pace.capacity t) s'.turns next')
      = Pace.measured? (Window.push (Pace.capacity t) s.turns next) := by
    rw [Pace.measured?, Pace.measured?, elapsed_eq turns, distance_eq turns]
  unfold Pace.push
  dsimp only
  rw [measured, h.speed]
  split
  · exact ⟨rfl, turns⟩
  · exact ⟨rfl, turns⟩

theorem Reading.carry (h : o.Reading s s') {last last' : PageTurn} (hl : o.Turn last last')
    (hn : o.Turn next next') (t : Tuning α) :
    o.Reading (s.carry t last next) (s'.carry t last' next') := by
  have span : Count.distance last'.page next'.page = Count.distance last.page next.page :=
    UInt64.toNat_inj.mp (hl.gap_eq hn)
  unfold Pace.carry
  rw [hn.moment.sub_eq hl.moment, span]
  split
  · exact ⟨rfl, .nil⟩
  · split
    · exact ⟨h.speed, .nil⟩
    · exact h

/-- **The reading speed depends on differences only.** -/
theorem Reading.observe (h : o.Reading s s') (hn : o.Turn next next') (t : Tuning α) :
    o.Reading (s.observe t next) (s'.observe t next') := by
  have last := rel_getLast h.turns
  unfold Pace.observe
  generalize s.turns.getLast? = final at last ⊢
  generalize s'.turns.getLast? = final' at last ⊢
  cases last with
  | none => exact h.push hn t
  | some last =>
    dsimp only
    simp only [last.page.eq_iff hn.page]
    split
    · -- the same page is shown again
      exact h
    · exact (h.carry last hn t).push hn t

theorem Reading.fits (h : o.Reading s s') (hn : o.Turn next next') (t : Tuning α) :
    s'.fits t next' = s.fits t next := by
  have turns := (h.observe hn t).turns
  have last := rel_getLast h.turns
  have same : (s'.turns.getLast?.map (·.page) == some next'.page)
      = (s.turns.getLast?.map (·.page) == some next.page) := by
    generalize s.turns.getLast? = final at last ⊢
    generalize s'.turns.getLast? = final' at last ⊢
    cases last with
    | none => rfl
    | some last =>
      rw [Bool.eq_iff_iff, beq_iff_eq, beq_iff_eq]
      simp only [Option.map_some, Option.some.injEq]
      exact last.page.eq_iff hn.page
  unfold Pace.fits
  dsimp only
  rw [same, elapsed_eq turns, distance_eq turns]

/-! ## Pages to prefetch -/

theorem range'_moved {first first' : Nat} (h : (first' : Int) = first + o.pages) (count : Nat) :
    (List.range' first count).Forall₂ (fun n n' : Nat => (n' : Int) = n + o.pages)
      (List.range' first' count) := by
  induction count generalizing first first' with
  | zero => exact .nil
  | succ count ih => exact .cons h (ih (by omega))

/-- **The pages to prefetch move with the page shown.** -/
theorem Place.lookaheadPages {p p' : Position} (h : o.Place p p') (t : Tuning α)
    (speed intensity : α) :
    (t.lookaheadPages p speed intensity).Forall₂ o.Page (t.lookaheadPages p' speed intensity) := by
  have inside' : p'.page < p'.pageCount := by
    rw [← UInt64.not_le, h.pageCount.le_iff h.page, UInt64.not_le]
    exact h.inside
  have page := h.page
  have pageCount := h.pageCount
  unfold Page at page pageCount
  have start : ((p'.page.toNat + 1 : Nat) : Int) = (p.page.toNat + 1 : Nat) + o.pages := by omega
  have inside := UInt64.lt_iff_toNat_lt.mp h.inside
  -- both ends move along, that of the lookahead and that of the document
  have same : min (p'.page.toNat + (t.lookahead speed intensity).toNat) (p'.pageCount.toNat - 1)
        - p'.page.toNat
      = min (p.page.toNat + (t.lookahead speed intensity).toNat) (p.pageCount.toNat - 1)
        - p.page.toNat := by omega
  have pages := range'_moved start (min (p.page.toNat + (t.lookahead speed intensity).toNat)
    (p.pageCount.toNat - 1) - p.page.toNat)
  rw [← t.toNat_lookaheadPages h.inside, ← same, ← t.toNat_lookaheadPages inside',
    List.forall₂_map_left_iff, List.forall₂_map_right_iff] at pages
  exact pages

/-! ## Parallel planners -/

/-- Outputs that are the same, but for the pages to prefetch. -/
structure Output (o : Offset) (out out' : PlannerOutput α) : Prop where
  readingSpeed : out'.readingSpeed = out.readingSpeed
  targets : out.targets.Forall₂ o.Page out'.targets
  sensitivity : out'.sensitivity = out.sensitivity
  underLoad : out'.underLoad = out.underLoad
  frameInterval : out'.frameInterval = out.frameInterval

/-- Planners of which one has seen what the other has, so far ahead or behind. -/
structure Parallel (o : Offset) (p p' : Planner α) : Prop where
  tuning : p'.tuning = p.tuning
  pace : o.Reading p.pace p'.pace
  frames : p'.frames = p.frames
  gravity : p'.gravity = p.gravity
  intensity : p'.intensity = p.intensity
  position : Option.Rel o.Place p.position p'.position
  underLoad : p'.underLoad = p.underLoad
  lastOverload : Option.Rel o.Moment p.lastOverload p'.lastOverload
  output : o.Output p.output p'.output

theorem publish_nil (s s' : Stream (List Count)) :
    (s.publish []).value.Forall₂ o.Page (s'.publish []).value := by
  rw [Stream.value_publish, Stream.value_publish]
  exact .nil

variable {p p' : Planner α} {now now' : Duration}

theorem Parallel.turn (h : o.Parallel p p') (hn : o.Moment now now')
    {page page' pageCount pageCount' : Count} (hp : o.Page page page')
    (hc : o.Page pageCount pageCount') (inside : page < pageCount) :
    o.Parallel (p.turn now page pageCount) (p'.turn now' page' pageCount') := by
  have turned : o.Turn ⟨page, now⟩ ⟨page', now'⟩ := ⟨hp, hn⟩
  have pace := h.pace.observe turned p.tuning
  refine { h with
    pace := ?_, position := .some ⟨inside, hp, hc⟩, output := { h.output with readingSpeed := ?_ } }
  · show o.Reading _ (p'.pace.observe p'.tuning _)
    rw [h.tuning]
    exact pace
  · show (p'.streams.readingSpeed.publish (p'.pace.observe p'.tuning _).pagesPerMinute).value = _
    rw [h.tuning, pace.speed]
    exact Stream.value_publish_congr h.output.readingSpeed _

theorem Parallel.replan (h : o.Parallel p p') : o.Parallel p.replan p'.replan := by
  have targets : p.replan.streams.targets.value.Forall₂ o.Page p'.replan.streams.targets.value := by
    have position := h.position
    unfold Planner.replan
    rw [h.tuning, h.pace.speed, h.intensity]
    generalize p.position = here at position ⊢
    generalize p'.position = there at position ⊢
    cases position with
    | none => exact h.output.targets
    | some place =>
      dsimp only
      rw [Stream.value_publish, Stream.value_publish]
      exact place.lookaheadPages p.tuning p.pace.pagesPerMinute p.intensity
  rw [p.replan_frame, p'.replan_frame]
  exact { h with output := { h.output with targets := targets } }

omit [Quantity α] in
theorem Parallel.isCooling (h : o.Parallel p p') (hn : o.Moment now now') :
    p'.isCooling now' = p.isCooling now := by
  have latest := h.lastOverload
  unfold Planner.isCooling
  rw [h.tuning]
  generalize p.lastOverload = moment at latest ⊢
  generalize p'.lastOverload = moment' at latest ⊢
  cases latest with
  | none => rfl
  | some latest =>
    dsimp only
    rw [hn.sub_eq latest]

omit [Quantity α] in
theorem Parallel.endLoad (h : o.Parallel p p') : o.Parallel p.endLoad p'.endLoad :=
  { h with
    frames := rfl
    underLoad := rfl
    output := { h.output with underLoad := Stream.value_publish_congr h.output.underLoad false } }

theorem Parallel.showPage (h : o.Parallel p p') (hn : o.Moment now now')
    {page page' pageCount pageCount' : Count} (hp : o.Page page page')
    (hc : o.Page pageCount pageCount') :
    o.Parallel (p.showPage now page pageCount) (p'.showPage now' page' pageCount') := by
  rw [Planner.showPage_eq, Planner.showPage_eq, h.underLoad, h.isCooling hn]
  simp only [hc.le_iff hp]
  split
  · exact h
  · next inside =>
    have turned := h.turn hn hp hc (UInt64.not_le.mp inside)
    split
    · split
      · exact turned
      · exact turned.endLoad.replan
    · exact turned.replan

theorem Parallel.measure (h : o.Parallel p p') (interval : α) :
    o.Parallel (p.measure interval) (p'.measure interval) := by
  have frames : p'.frames.push p'.tuning interval = p.frames.push p.tuning interval := by
    rw [h.frames, h.tuning]
  refine { h with frames := frames, output := { h.output with frameInterval := ?_ } }
  show (p'.streams.frameInterval.publish (p'.frames.push p'.tuning interval).average).value = _
  rw [frames]
  exact Stream.value_publish_congr h.output.frameInterval _

omit [Quantity α] in
theorem Parallel.overload (h : o.Parallel p p') (hn : o.Moment now now') :
    o.Parallel (p.overload now) (p'.overload now') := by
  have load := h.underLoad
  unfold Planner.overload
  dsimp only
  split
  · next loaded =>
    rw [if_pos (load.trans loaded)]
    exact { h with lastOverload := .some hn }
  · next calm =>
    rw [if_neg (fun loaded => calm (load.symm.trans loaded))]
    refine { h with underLoad := rfl, lastOverload := .some hn, output := { h.output with
      targets := ?_, underLoad := Stream.value_publish_congr h.output.underLoad true } }
    exact publish_nil p.streams.targets p'.streams.targets

theorem Parallel.observeFrame (h : o.Parallel p p') (hn : o.Moment now now') (interval : α) :
    o.Parallel (p.observeFrame now interval) (p'.observeFrame now' interval) := by
  rw [Planner.observeFrame_eq, Planner.observeFrame_eq, h.tuning, h.frames]
  split
  · split
    · exact (h.measure interval).overload hn
    · exact h.measure interval
  · exact h

theorem Parallel.incline (h : o.Parallel p p') (tilt : Tilt α) (gravity : GravityFilter α) :
    o.Parallel (p.incline tilt gravity) (p'.incline tilt gravity) :=
  { h with
    gravity := rfl
    intensity := rfl
    output := { h.output with
      sensitivity := Stream.value_publish_congr h.output.sensitivity tilt.sensitivity } }

theorem Parallel.observeTilt (h : o.Parallel p p') (acceleration : Axes α) :
    o.Parallel (p.observeTilt acceleration) (p'.observeTilt acceleration) := by
  rw [Planner.observeTilt_eq, Planner.observeTilt_eq, h.tuning, h.gravity, h.underLoad]
  split
  · exact h
  · next tilt gravity _ =>
    split
    · exact h.incline tilt gravity
    · exact (h.incline tilt gravity).replan

theorem start_parallel (o : Offset) (t : Tuning α) : o.Parallel (.start t) (.start t) where
  tuning := rfl
  pace := ⟨rfl, .nil⟩
  frames := rfl
  gravity := rfl
  intensity := rfl
  position := .none
  underLoad := rfl
  lastOverload := .none
  output := ⟨rfl, .nil, rfl, rfl, rfl⟩

theorem Parallel.reset (h : o.Parallel p p') : o.Parallel p.reset p'.reset := by
  have start := start_parallel o p.tuning
  refine { start with tuning := h.tuning, output := ?_ }
  refine ⟨Stream.value_publish_congr h.output.readingSpeed _, ?_,
    Stream.value_publish_congr h.output.sensitivity _,
    Stream.value_publish_congr h.output.underLoad _,
    Stream.value_publish_congr h.output.frameInterval _⟩
  exact publish_nil p.streams.targets p'.streams.targets

/-! ## Parallel runs -/

/-- Events that are the same, but for the page numbers in them. -/
inductive Event (o : Offset) : PlannerEvent α → PlannerEvent α → Prop where
  | page {page page' pageCount pageCount' : Count} : o.Page page page' →
      o.Page pageCount pageCount' → Event o (.page page pageCount) (.page page' pageCount')
  | frame (interval : α) : Event o (.frame interval) (.frame interval)
  | tilt (acceleration : Axes α) : Event o (.tilt acceleration) (.tilt acceleration)
  | reset : Event o .reset .reset

/-- Moves that are the same, but for clock readings and page numbers. -/
inductive Move (o : Offset) : PlannerMove α → PlannerMove α → Prop where
  | clock {reading reading' : Duration} : o.Moment reading reading' →
      Move o (.clock reading) (.clock reading')
  | event {event event' : PlannerEvent α} : o.Event event event' →
      Move o (.event event) (.event event')

variable {event event' : PlannerEvent α}

/-- **Corresponding events keep planners parallel.** -/
theorem Parallel.apply (h : o.Parallel p p') (hn : o.Moment now now') (he : o.Event event event') :
    o.Parallel (p.apply now event) (p'.apply now' event') := by
  cases he with
  | page hp hc => exact h.showPage hn hp hc
  | frame interval => exact h.observeFrame hn interval
  | tilt acceleration => exact h.observeTilt acceleration
  | reset => exact h.reset

theorem Parallel.fits (h : o.Parallel p p') (hn : o.Moment now now')
    (he : o.Event event event') : p'.fits now' event' = p.fits now event := by
  cases he with
  | @page page page' _ _ hp hc =>
    have turned : o.Turn ⟨page, now⟩ ⟨page', now'⟩ := ⟨hp, hn⟩
    show (decide (_ ≤ page') || _) = (decide (_ ≤ page) || _)
    rw [h.tuning, h.pace.fits turned]
    simp only [hc.le_iff hp]
  | frame => rfl
  | tilt => rfl
  | reset => rfl

/-- Planners beside clocks that are so far apart. -/
structure Timed (o : Offset) (s s' : TimedPlanner α) : Prop where
  planner : o.Parallel s.planner s'.planner
  clock : o.Moment s.clock s'.clock

variable {s s' : TimedPlanner α}

theorem Timed.step (h : o.Timed s s') {move move' : PlannerMove α} (hm : o.Move move move') :
    o.Timed (s.step move) (s'.step move') := by
  cases hm with
  | clock moment => exact ⟨h.planner, moment⟩
  | event he => exact ⟨h.planner.apply h.clock he, h.clock⟩

/-- **Corresponding moves keep planners parallel.** -/
theorem Timed.run (h : o.Timed s s') {moves moves' : List (PlannerMove α)}
    (hm : moves.Forall₂ o.Move moves') : o.Timed (s.run moves) (s'.run moves') :=
  List.rel_foldl (fun _ _ h _ _ hm => h.step hm) h hm

/-- **Only differences of time and of page numbers matter.** If every clock reading and
every page number of a run is moved by the same number of nanoseconds and of pages, then
after every step the reading speed, the sensitivity, the load and the frame interval are
the same, the pages to prefetch are moved like the pages shown, and the sums behind the
estimates fit into 64 bits for the next event of both runs or of neither. -/
theorem offsets_cancel (t : Tuning α) (o : Offset) (clock clock' : Duration)
    (hc : o.Moment clock clock') {moves moves' : List (PlannerMove α)}
    (hm : moves.Forall₂ o.Move moves') (steps : Nat) :
    let s := (TimedPlanner.start t clock).run (moves.take steps)
    let s' := (TimedPlanner.start t clock').run (moves'.take steps)
    s'.planner.output.readingSpeed = s.planner.output.readingSpeed ∧
    s'.planner.output.sensitivity = s.planner.output.sensitivity ∧
    s'.planner.output.underLoad = s.planner.output.underLoad ∧
    s'.planner.output.frameInterval = s.planner.output.frameInterval ∧
    s'.planner.output.targets.map (fun page => (page.toNat : Int))
      = s.planner.output.targets.map (fun page => page.toNat + o.pages) ∧
    ∀ event event', o.Event event event' →
      s'.planner.fits s'.clock event' = s.planner.fits s.clock event := by
  intro s s'
  have start : o.Timed (TimedPlanner.start t clock) (TimedPlanner.start t clock') :=
    ⟨start_parallel o t, hc⟩
  have timed : o.Timed s s' := start.run (List.forall₂_take steps hm)
  obtain ⟨speed, targets, sensitivity, load, interval⟩ := timed.planner.output
  refine ⟨speed, sensitivity, load, interval, ?_,
    fun _ _ he => timed.planner.fits timed.clock he⟩
  rw [← List.forall₂_eq_eq_eq, List.forall₂_map_left_iff, List.forall₂_map_right_iff]
  exact targets.flip

end

/-- Two pages near the end of a short document, three seconds apart. -/
def ending : List (PlannerMove Float) :=
  [.event (.page 6 10), .clock 3000000000, .event (.page 7 10)]

/-- The same two pages near the end of the longest document there is. -/
def endingFar : List (PlannerMove Float) :=
  [.event (.page 18446744073709551611 18446744073709551615), .clock 1577880003000000000,
    .event (.page 18446744073709551612 18446744073709551615)]

/-- Fifty years, and as many pages as there can be in front of ten. -/
def far : Offset := ⟨1577880000000000000, 18446744073709551605⟩

theorem ending_moved : ending.Forall₂ far.Move endingFar :=
  .cons (.event (.page rfl rfl)) (.cons (.clock rfl) (.cons (.event (.page rfl rfl)) .nil))

/-- **Not vacuous**: the end of the longest document there is, read fifty years after the
clock's origin, is planned for like the end of one of ten pages. Twenty pages per minute
call for three pages, and there are two. -/
theorem offsets_cancel_far :
    let p := ((TimedPlanner.start .standard 1577880000000000000).run (endingFar.take 3)).planner
    p.output.readingSpeed = 20.0 ∧
    p.output.targets.map (fun page => (page.toNat : Int))
      = [18446744073709551613, 18446744073709551614] := by
  obtain ⟨speed, _, _, _, targets, _⟩ :=
    offsets_cancel .standard far 0 1577880000000000000 rfl ending_moved 3
  exact ⟨speed.trans (by decide +kernel), targets.trans (by decide +kernel)⟩

end Offset

end ReadAhead
