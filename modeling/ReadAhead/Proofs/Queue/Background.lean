import ReadAhead.Proofs.Queue.Dispatch

/-!
  Background work — what switching it off does, and that it stays off

  Switching background work off abandons all of it that waits or runs. From then
  on a queue has none that is open (`Suppressed`), and nothing but switching it on
  again changes that. Tasks that were abandoned do not wait, so they are lost for
  good: only what is submitted after the switch begins again.

  What is proved:
    1. `Accounted.task?_setBackground` — the table after background work was
       switched off. Exactly the background tasks that wait or run are settled;
       all others are as they were.
    2. `Accounted.inside_apply`, `suppressed_apply` — no step but switching on lets
       an open background task come about.
    3. `background_suppressed` — over every run of a queue: what the switch does at
       once, what holds as long as it is off, and what may begin after it.
-/

namespace ReadAhead.Queue

variable {α : Type} {q : Queue α}

theorem isBackground_eq {id : TaskNumber} {t : Task α} (h : q.task? id = some t) :
    q.isBackground id = t.priority.isBackground := by
  rw [isBackground, h, Option.any_some]

theorem Accounted.isBackground_ticket {transit : List TaskNumber} (h : q.Accounted transit)
    {t : Ticket} (ht : t ∈ q.pending.toList) : q.isBackground t.id = t.priority.isBackground :=
  isBackground_eq (h.fresh t ht)

/-! ## Switching off -/

theorem isBackground_abandonAll (q : Queue α) (ids : List TaskNumber) :
    (q.abandonAll ids).isBackground = q.isBackground := by
  funext j
  rw [isBackground, isBackground, task?_abandonAll]
  split
  · cases q.task? j <;> rfl
  · rfl

/-- The queue after the background tasks that wait were abandoned. -/
def dropBackground (q : Queue α) : Queue α :=
  { q with
    backgroundEnabled := false
    pending := (q.pending.drain (·.priority.isBackground)).2
  }.abandonAll ((q.pending.drain (·.priority.isBackground)).1.map Ticket.id)

theorem dropBackground_frame (q : Queue α) :
    q.dropBackground.pending = (q.pending.drain (·.priority.isBackground)).2 ∧
      q.dropBackground.running = q.running ∧ q.dropBackground.workers = q.workers := by
  rw [dropBackground, abandonAll_frame]
  exact ⟨rfl, rfl, rfl⟩

theorem switch_abandonAll (q : Queue α) (ids : List TaskNumber) :
    (q.abandonAll ids).backgroundEnabled = q.backgroundEnabled := by
  rw [abandonAll_frame]

theorem switch_setBackground (q : Queue α) (enabled : Bool) :
    (q.setBackground enabled).backgroundEnabled = enabled := by
  unfold setBackground
  split
  · next same => exact same
  · dsimp only
    split
    · rfl
    · exact (switch_abandonAll _ _).trans (switch_abandonAll _ _)

theorem setBackground_same (off : q.backgroundEnabled = false) : q.setBackground false = q := by
  rw [setBackground, if_pos off]

/-- Switching off abandons the background tasks that wait, and then those that
run. -/
theorem setBackground_eq (on : q.backgroundEnabled = true) : q.setBackground false
    = (q.dropBackground.abandonAll (q.running.filter q.isBackground)).publish := by
  have background : q.dropBackground.isBackground = q.isBackground := isBackground_abandonAll _ _
  rw [← (dropBackground_frame q).2.1, ← background]
  unfold setBackground
  rw [on, if_neg (by decide)]
  rfl

theorem setBackground_frame (on : q.backgroundEnabled = true) :
    (q.setBackground false).pending = (q.pending.drain (·.priority.isBackground)).2 ∧
      (q.setBackground false).running = q.running ∧
      (q.setBackground false).workers = q.workers := by
  rw [setBackground_eq on, publish, abandonAll_frame]
  exact dropBackground_frame q

/-- **Background tasks that wait or run are settled as cancelled**, and all other
tasks are as they were. -/
theorem Accounted.task?_setBackground (h : q.Accounted []) (on : q.backgroundEnabled = true)
    (id : TaskNumber) :
    (q.setBackground false).task? id
      = if q.isBackground id = true ∧ (id ∈ q.waiting ∨ id ∈ q.running)
        then (q.task? id).map (Task.settle true (.error .cancelled)) else q.task? id := by
  have dropped : id ∈ (q.pending.drain (·.priority.isBackground)).1.map Ticket.id
      ↔ q.isBackground id = true ∧ id ∈ q.waiting := by
    rw [Pending.drain, Heap.drain_fst, List.mem_map]
    constructor
    · rintro ⟨t, ht, rfl⟩
      obtain ⟨waits, background⟩ := List.mem_filter.mp ht
      exact ⟨(h.isBackground_ticket waits).trans background, List.mem_map_of_mem waits⟩
    · rintro ⟨background, waits⟩
      obtain ⟨t, ht, rfl⟩ := List.mem_map.mp waits
      rw [h.isBackground_ticket ht] at background
      exact ⟨t, List.mem_filter.mpr ⟨ht, background⟩, rfl⟩
  have table : q.dropBackground.task? id
      = if q.isBackground id = true ∧ id ∈ q.waiting
        then (q.task? id).map (Task.settle true (.error .cancelled)) else q.task? id := by
    rw [dropBackground, task?_abandonAll]
    simp only [dropped]
    rfl
  rw [setBackground_eq on]
  show (q.dropBackground.abandonAll (q.running.filter q.isBackground)).task? id = _
  rw [task?_abandonAll, table]
  by_cases background : q.isBackground id = true
  · by_cases waits : id ∈ q.waiting
    · -- what waits does not run, so it is settled once
      have apart : id ∉ q.running := fun runs => h.running_not_waiting runs waits
      simp [List.mem_filter, background, waits, apart]
    · simp [List.mem_filter, background, waits]
  · simp [List.mem_filter, background]

/-! ## What every other step does -/

/-- A step in which no task enters the table and nothing is switched on or off;
what runs after it ran before, or waited. -/
structure Inside (q q' : Queue α) : Prop where
  switch : q'.backgroundEnabled = q.backgroundEnabled
  size : q'.tasks.size = q.tasks.size
  running : ∀ id ∈ q'.running, id ∈ q.running ∨ id ∈ q.waiting

theorem Inside.refl (q : Queue α) : q.Inside q := ⟨rfl, rfl, fun _ => .inl⟩

theorem Inside.abandonAll {q' : Queue α} (h : q.Inside q') (ids : List TaskNumber) :
    q.Inside (q'.abandonAll ids) where
  switch := (switch_abandonAll q' ids).trans h.switch
  size := (size_abandonAll q' ids).trans h.size
  running id hid := by
    rw [abandonAll_frame] at hid
    exact h.running id hid

theorem Inside.report {q' : Queue α} (h : q.Inside q') (published : Stream QueueStatistics)
    (workers : List Worker) : q.Inside { q' with published := published, workers := workers } :=
  { h with }

theorem Accounted.inside_apply (h : q.Accounted []) (event : QueueEvent α)
    (entered : ∀ priority choice, event ≠ .submit priority choice)
    (switched : ∀ enabled, event ≠ .setBackground enabled) : q.Inside (q.apply event) := by
  cases event with
  | submit priority choice => exact absurd rfl (entered priority choice)
  | setBackground enabled => exact absurd rfl (switched enabled)
  | look worker =>
    show q.Inside (q.look worker)
    rcases h.look_cases worker with same | ⟨w, _, _, eq⟩ | ⟨t, rest, _, _, _, pop, eq⟩
    · rw [same]
      exact .refl q
    · rw [eq]
      exact ⟨rfl, rfl, fun _ => .inl⟩
    · rw [eq]
      refine ⟨rfl, rfl, ?_⟩
      intro id hid
      rcases List.mem_cons.mp hid with rfl | hid
      · exact .inr (List.mem_map_of_mem ((Heap.toList_pop pop).mem_iff.mpr List.mem_cons_self))
      · exact .inl hid
  | finish worker workEnd =>
    show q.Inside (q.finish worker workEnd)
    rcases finish_cases q worker workEnd with ⟨id, hw⟩ | same
    · have finished := finish_eq workEnd hw
      rw [modifyTask_frame] at finished
      rw [finished]
      exact ⟨rfl, size_modifyTask q id _, fun _ => .inl⟩
    · rw [same]
      exact .refl q
  | record worker =>
    show q.Inside (q.record worker)
    rcases record_cases q worker with ⟨id, ending, hw⟩ | same
    · obtain ⟨_, _, _, recorded, _⟩ := record_eq hw
      rw [recorded]
      exact ⟨rfl, rfl, fun _ hid => .inl (List.mem_of_mem_erase hid)⟩
    · rw [same]
      exact .refl q
  | cancel id =>
    show q.Inside (q.cancel id).2
    by_cases hw : id ∈ q.waiting
    · have removed : q.Inside { q with pending := (q.pending.remove id).2 } :=
        ⟨rfl, rfl, fun _ => .inl⟩
      rw [cancel_waiting hw]
      exact (removed.abandonAll [id]).report _ _
    · rw [cancel_not_waiting hw]
      split
      · have abandoned := (Inside.refl q).abandonAll [id]
        dsimp only
        split
        · exact abandoned.report _ _
        · exact abandoned
      · exact .refl q
  | pause =>
    show q.Inside q.pause
    unfold pause
    split <;> exact ⟨rfl, rfl, fun _ => .inl⟩
  | resume =>
    show q.Inside q.resume
    unfold resume
    split <;> exact ⟨rfl, rfl, fun _ => .inl⟩
  | stop =>
    show q.Inside q.stop
    unfold stop
    split
    · exact .refl q
    · have emptied : q.Inside { q with stopped := true, pending := .empty } :=
        ⟨rfl, rfl, fun _ => .inl⟩
      exact ((emptied.abandonAll _).abandonAll _).report _ _

/-! ## Submitting -/

/-- Whether a task is turned away when it is submitted. -/
def refuses (q : Queue α) (priority : Priority) : Bool :=
  q.stopped || (priority.isBackground && !q.backgroundEnabled)

theorem submit_number (q : Queue α) (priority : Priority) (choice : Nat) :
    (q.submit priority choice).1 = q.tasks.size + 1 := rfl

theorem submit_of_refused {priority : Priority} (refused : q.refuses priority = true)
    (choice : Nat) : (q.submit priority choice).2
      = ({ q with tasks := q.tasks.push ⟨priority, false, none⟩ }.abandon
          (q.tasks.size + 1)).2.publish := by
  unfold refuses at refused
  unfold submit
  dsimp only
  rw [if_pos refused]

theorem submit_of_taken {priority : Priority} (taken : q.refuses priority = false)
    (choice : Nat) : (q.submit priority choice).2 = Queue.publish { q with
      tasks := q.tasks.push ⟨priority, false, none⟩
      pending := q.pending.push ⟨q.tasks.size + 1, priority⟩
      workers := Worker.wakeOne q.workers choice } := by
  rw [refuses, ← Bool.not_eq_true] at taken
  unfold submit
  dsimp only
  rw [if_neg taken]

/-- A task that is submitted enters the table as it is, or settled as cancelled if
it is turned away. -/
theorem task?_submit (q : Queue α) (priority : Priority) (choice : Nat) (j : TaskNumber) :
    (q.submit priority choice).2.task? j = if j = q.tasks.size + 1
      then some (if q.refuses priority
        then Task.settle true (.error .cancelled) ⟨priority, false, none⟩
        else ⟨priority, false, none⟩)
      else q.task? j := by
  have entered := task?_push q ⟨priority, false, none⟩ j
  cases refused : q.refuses priority with
  | true =>
    rw [submit_of_refused refused, if_pos rfl, abandon_eq]
    show (modifyTask { q with tasks := q.tasks.push ⟨priority, false, none⟩ } _ _).task? j = _
    rw [task?_modifyTask, entered]
    by_cases new : j = q.tasks.size + 1
    · rw [if_pos new, if_pos new, if_pos new]
      rfl
    · rw [if_neg new, if_neg new, if_neg new]
  | false =>
    rw [submit_of_taken refused, if_neg Bool.false_ne_true]
    exact entered

theorem submit_frame (q : Queue α) (priority : Priority) (choice : Nat) :
    (q.submit priority choice).2.running = q.running ∧
      (q.submit priority choice).2.backgroundEnabled = q.backgroundEnabled := by
  cases refused : q.refuses priority with
  | true =>
    rw [submit_of_refused refused, abandon_eq, modifyTask_frame]
    exact ⟨rfl, rfl⟩
  | false =>
    rw [submit_of_taken refused]
    exact ⟨rfl, rfl⟩

/-! ## What holds while it is off -/

/-- Every background task has ended, and those that run are flagged as well. -/
structure Suppressed (q : Queue α) : Prop where
  ended : ∀ id t, q.task? id = some t → t.priority.isBackground = true → t.result.isSome = true
  flagged : ∀ id ∈ q.running, ∀ t, q.task? id = some t → t.priority.isBackground = true →
    t.flagged = true

theorem Suppressed.waiting_visible (s : q.Suppressed) (h : q.Accounted []) {t : Ticket}
    (ht : t ∈ q.pending.toList) : t.priority.isBackground = false := by
  cases background : t.priority.isBackground with
  | false => rfl
  | true => cases s.ended t.id _ (h.fresh t ht) background

theorem Later.origin {q' : Queue α} (later : q.Later q') (size : q'.tasks.size = q.tasks.size)
    {id : TaskNumber} {t' : Task α} (ht' : q'.task? id = some t') :
    ∃ t, q.task? id = some t ∧ t.Ages t' := by
  cases ht : q.task? id with
  | none =>
    rw [task?_eq_none, ← size, ← task?_eq_none, ht'] at ht
    cases ht
  | some t =>
    obtain ⟨t₁, ht₁, older⟩ := later.ages id t ht
    rw [ht', Option.some.injEq] at ht₁
    exact ⟨t, rfl, ht₁ ▸ older⟩

theorem Suppressed.inside {q' : Queue α} (s : q.Suppressed) (h : q.Accounted [])
    (later : q.Later q') (inside : q.Inside q') : q'.Suppressed where
  ended id t' ht' background := by
    obtain ⟨t, ht, older⟩ := later.origin inside.size ht'
    rw [older.priority] at background
    obtain ⟨r, hr⟩ := Option.isSome_iff_exists.mp (s.ended id t ht background)
    rw [older.result r hr]
    rfl
  flagged id hid t' ht' background := by
    obtain ⟨t, ht, older⟩ := later.origin inside.size ht'
    rw [older.priority] at background
    rcases inside.running id hid with runs | waits
    · exact older.flagged (s.flagged id runs t ht background)
    · obtain ⟨ticket, hticket, rfl⟩ := List.mem_map.mp waits
      rw [h.fresh ticket hticket, Option.some.injEq] at ht
      have visible := s.waiting_visible h hticket
      rw [← ht] at background
      rw [background] at visible
      cases visible

theorem Suppressed.submit (s : q.Suppressed) (h : q.Accounted [])
    (off : q.backgroundEnabled = false) (priority : Priority) (choice : Nat) :
    (q.submit priority choice).2.Suppressed where
  ended id t ht background := by
    rw [task?_submit] at ht
    by_cases new : id = q.tasks.size + 1
    · rw [if_pos new, Option.some.injEq] at ht
      subst ht
      split at background
      · next refused => rw [if_pos refused]; rfl
      · next taken =>
        have background : priority.isBackground = true := background
        rw [refuses, off, background] at taken
        simp at taken
    · rw [if_neg new] at ht
      exact s.ended id t ht background
  flagged id hid t ht background := by
    rw [(submit_frame q priority choice).1] at hid
    have old : id ≠ q.tasks.size + 1 := Nat.ne_of_lt (Nat.lt_succ_of_le (h.known id hid))
    rw [task?_submit, if_neg old] at ht
    exact s.flagged id hid t ht background

theorem Accounted.suppressed_setBackground (h : q.Accounted []) (on : q.backgroundEnabled = true) :
    (q.setBackground false).Suppressed where
  ended id t ht background := by
    rw [h.task?_setBackground on] at ht
    split at ht
    · obtain ⟨t₀, _, rfl⟩ := Option.map_eq_some_iff.mp ht
      rfl
    · next apart =>
      cases hr : t.result with
      | some r => rfl
      | none => exact absurd ⟨(isBackground_eq ht).trans background, h.placed_of_open ht hr⟩ apart
  flagged id hid t ht background := by
    rw [(setBackground_frame on).2.1] at hid
    rw [h.task?_setBackground on] at ht
    split at ht
    · obtain ⟨t₀, _, rfl⟩ := Option.map_eq_some_iff.mp ht
      rw [Task.settle, Bool.or_true]
    · next apart =>
      rw [isBackground_eq ht] at apart
      exact absurd ⟨background, .inr hid⟩ apart

/-- **No step but switching on lets background work come about.** -/
theorem suppressed_apply (h : q.Accounted []) (s : q.backgroundEnabled = false → q.Suppressed)
    (event : QueueEvent α) (off : (q.apply event).backgroundEnabled = false) :
    (q.apply event).Suppressed := by
  have other (entered : ∀ priority choice, event ≠ .submit priority choice)
      (switched : ∀ enabled, event ≠ .setBackground enabled) : (q.apply event).Suppressed := by
    have inside := h.inside_apply event entered switched
    exact (s (inside.switch ▸ off)).inside h (h.later_apply event) inside
  cases event with
  | submit priority choice =>
    have off : (q.submit priority choice).2.backgroundEnabled = false := off
    rw [(submit_frame q priority choice).2] at off
    exact (s off).submit h off priority choice
  | setBackground enabled =>
    obtain rfl : enabled = false := (switch_setBackground q enabled).symm.trans off
    show (q.setBackground false).Suppressed
    cases on : q.backgroundEnabled with
    | true => exact h.suppressed_setBackground on
    | false =>
      rw [setBackground_same on]
      exact s on
  | _ => exact other nofun nofun

theorem run_suppressed (workers : Nat) (paused : Bool) (events : List (QueueEvent α))
    (off : ((start workers paused).run events).backgroundEnabled = false) :
    ((start workers paused).run events).Suppressed := by
  have both : ((start workers paused).run events).Accounted [] ∧
      (((start workers paused).run events).backgroundEnabled = false →
        ((start workers paused).run events).Suppressed) := by
    refine run_induction
      (motive := fun q => q.Accounted [] ∧ (q.backgroundEnabled = false → q.Suppressed)) ?_ ?_ events
    · exact fun q event h => ⟨apply_accounted h.1 event, suppressed_apply h.1 h.2 event⟩
    · exact ⟨start_accounted workers paused, nofun⟩
  exact both.2 off

theorem Later.isBackground {q' : Queue α} (later : q.Later q') {id : TaskNumber}
    (background : q.isBackground id = true) : q'.isBackground id = true := by
  obtain ⟨t, ht, priority⟩ := (Option.any_eq_true _ _).mp background
  obtain ⟨t', ht', older⟩ := later.ages id t ht
  rw [isBackground_eq ht', older.priority, priority]

/-! ## Tasks for the screen -/

theorem visible_of_not_background {p : Priority} (h : p.isBackground = false) : p = .visible := by
  cases p <;> first | rfl | cases h

theorem Accounted.task?_setBackground_visible (h : q.Accounted []) {id : TaskNumber}
    (visible : q.isBackground id = false) : (q.setBackground false).task? id = q.task? id := by
  cases on : q.backgroundEnabled with
  | true =>
    rw [h.task?_setBackground on, if_neg]
    intro apart
    rw [visible] at apart
    cases apart.1
  | false => rw [setBackground_same on]

theorem frame_setBackground (q : Queue α) :
    (q.setBackground false).running = q.running ∧ (q.setBackground false).workers = q.workers := by
  cases on : q.backgroundEnabled with
  | true => exact (setBackground_frame on).2
  | false =>
    rw [setBackground_same on]
    exact ⟨rfl, rfl⟩

theorem Accounted.upcoming_setBackground (h : q.Accounted [])
    (s : q.backgroundEnabled = false → q.Suppressed) : (q.setBackground false).pending.upcoming
      = q.pending.upcoming.filter (·.priority == .visible) := by
  have test (t : Ticket) : (t.priority == .visible) = !t.priority.isBackground := by
    cases t.priority <;> rfl
  simp only [test]
  cases on : q.backgroundEnabled with
  | true => rw [(setBackground_frame on).1, Pending.upcoming_drain h.ordered]
  | false =>
    rw [setBackground_same on, List.filter_eq_self.mpr]
    intro t ht
    rw [(s on).waiting_visible h ((Pending.upcoming_perm _).mem_iff.mp ht)]
    rfl

/-! ## Background work -/

theorem Accounted.result?_setBackground (h : q.Accounted [])
    (s : q.backgroundEnabled = false → q.Suppressed) {id : TaskNumber}
    (background : q.isBackground id = true) (unresolved : q.result? id = none) :
    (q.setBackground false).result? id = some (.error .cancelled) := by
  obtain ⟨t, ht, priority⟩ := (Option.any_eq_true _ _).mp background
  have hr : t.result = none := by rwa [result?, ht] at unresolved
  cases on : q.backgroundEnabled with
  | true =>
    rw [result?, h.task?_setBackground on, if_pos ⟨background, h.placed_of_open ht hr⟩, ht,
      Option.map_some, Option.bind_some, Task.settle, hr]
    rfl
  | false =>
    have ended := (s on).ended id t ht priority
    rw [hr] at ended
    cases ended

theorem Suppressed.settled (s : q.Suppressed) {id : TaskNumber} (runs : id ∈ q.running)
    (background : q.isBackground id = true) :
    q.isFlagged id = true ∧ (q.result? id).isSome = true := by
  obtain ⟨t, ht, priority⟩ := (Option.any_eq_true _ _).mp background
  rw [isFlagged, result?, ht]
  exact ⟨s.flagged id runs t ht priority, s.ended id t ht priority⟩

theorem Suppressed.begun_visible (s : q.Suppressed) (h : q.Accounted []) {event : QueueEvent α}
    {id : TaskNumber} (hid : id ∈ q.begun event) : q.isBackground id = false := by
  obtain ⟨t, ht, rfl⟩ := List.mem_map.mp (h.begun_gone hid).1
  rw [h.isBackground_ticket ht]
  exact s.waiting_visible h ht

theorem Suppressed.gone (s : q.Suppressed) (h : q.Accounted []) {id : TaskNumber}
    (background : q.isBackground id = true) : q.Gone id := by
  obtain ⟨t, ht, _⟩ := (Option.any_eq_true _ _).mp background
  refine ⟨le_size ht, ?_⟩
  intro waits
  obtain ⟨ticket, hticket, rfl⟩ := List.mem_map.mp waits
  rw [h.isBackground_ticket hticket, s.waiting_visible h hticket] at background
  cases background

theorem Suppressed.begins_new (s : q.Suppressed) (h : q.Accounted [])
    {more : List (QueueEvent α)} {id : TaskNumber} (hid : id ∈ q.begins more)
    (background : (q.run more).isBackground id = true) : q.tasks.size < id := by
  refine Nat.lt_of_not_le fun old => ?_
  cases ht : q.task? id with
  | none =>
    -- there is no task with number zero, so none begins
    rcases (task?_eq_none q id).mp ht with zero | new
    · rw [zero] at background
      cases background
    · exact Nat.not_le_of_lt new old
  | some t =>
    obtain ⟨t', ht', older⟩ := (h.later_run more).2.ages id t ht
    rw [isBackground_eq ht', older.priority, ← isBackground_eq ht] at background
    exact h.begins_not_gone (s.gone h background) more hid

theorem Accounted.submit_refused (h : q.Accounted []) {priority : Priority}
    (refused : q.refuses priority = true) (choice : Nat) :
    (q.submit priority choice).2.result? (q.submit priority choice).1 = some (.error .cancelled) ∧
      ∀ more, (q.submit priority choice).1 ∉ (q.submit priority choice).2.begins more := by
  have ended : (q.submit priority choice).2.result? (q.submit priority choice).1
      = some (.error .cancelled) := by
    rw [result?, task?_submit, if_pos (submit_number q priority choice), if_pos refused]
    rfl
  have next := submit_accounted h priority choice
  exact ⟨ended, fun more => next.begins_not_gone (next.gone_of_result ended) more⟩

theorem submit_taken {priority : Priority} (taken : q.refuses priority = false) (choice : Nat) :
    (q.submit priority choice).2.task? (q.submit priority choice).1
        = some ⟨priority, false, none⟩ ∧
      (q.submit priority choice).1 ∈ (q.submit priority choice).2.waiting := by
  constructor
  · rw [task?_submit, if_pos (submit_number q priority choice), taken]
    rfl
  · rw [submit_of_taken taken]
    exact ((q.pending.toList_push _).map Ticket.id).mem_iff.mpr List.mem_cons_self

/-- **Background work that is switched off is off, and nothing else is.** In every
reachable state, after switching it off: only tasks for the screen wait, every
background task that had not ended is cancelled, and every one that runs is
flagged; the tasks for the screen are as they were, wait in the same order and run
on the same workers. And in every reachable state in which it is off: no
background task waits, those that run are flagged and have ended, none begins,
one that is submitted is cancelled at once and never begins, and whatever else
happens, background work that begins was submitted later. Where it is on, a task
that is submitted waits for a worker. -/
theorem background_suppressed (workers : Nat) (paused : Bool) (events : List (QueueEvent α)) :
    let q : Queue α := (start workers paused).run events
    let off := q.setBackground false
    ((∀ t ∈ off.pending.toList, t.priority = .visible) ∧
      (∀ id, q.isBackground id = true → q.result? id = none →
        off.result? id = some (.error .cancelled)) ∧
      (∀ id ∈ q.running, q.isBackground id = true → off.isFlagged id = true)) ∧
    (off.pending.upcoming = q.pending.upcoming.filter (·.priority == .visible) ∧
      off.running = q.running ∧ off.workers = q.workers ∧
      (∀ id, q.isBackground id = false → off.task? id = q.task? id)) ∧
    (q.backgroundEnabled = false →
      (∀ t ∈ q.pending.toList, t.priority = .visible) ∧
      (∀ id ∈ q.running, q.isBackground id = true →
        q.isFlagged id = true ∧ (q.result? id).isSome = true) ∧
      (∀ event, ∀ id ∈ q.begun event, q.isBackground id = false) ∧
      (∀ priority choice, priority.isBackground = true →
        (q.submit priority choice).2.result? (q.submit priority choice).1
          = some (.error .cancelled) ∧
        ∀ more, (q.submit priority choice).1 ∉ (q.submit priority choice).2.begins more) ∧
      (∀ more, ∀ id ∈ q.begins more, (q.run more).isBackground id = true → q.tasks.size < id)) ∧
    (q.backgroundEnabled = true → q.stopped = false → ∀ priority choice,
      (q.submit priority choice).2.task? (q.submit priority choice).1
        = some ⟨priority, false, none⟩ ∧
      (q.submit priority choice).1 ∈ (q.submit priority choice).2.waiting) := by
  intro q off
  have h : q.Accounted [] := run_accounted workers paused events
  have s : q.backgroundEnabled = false → q.Suppressed := run_suppressed workers paused events
  have h' : off.Accounted [] := setBackground_accounted h false
  have s' : off.Suppressed := suppressed_apply h s (.setBackground false) (switch_setBackground q false)
  refine ⟨⟨?_, ?_, ?_⟩, ⟨?_, ?_, ?_, ?_⟩, ?_, ?_⟩
  · exact fun t ht => visible_of_not_background (s'.waiting_visible h' ht)
  · exact fun id background unresolved => h.result?_setBackground s background unresolved
  · intro id runs background
    have runs : id ∈ off.running := (frame_setBackground q).1 ▸ runs
    exact (s'.settled runs ((later_setBackground q false).isBackground background)).1
  · exact h.upcoming_setBackground s
  · exact (frame_setBackground q).1
  · exact (frame_setBackground q).2
  · exact fun id visible => h.task?_setBackground_visible visible
  · intro switched
    have s := s switched
    refine ⟨?_, ?_, ?_, ?_, ?_⟩
    · exact fun t ht => visible_of_not_background (s.waiting_visible h ht)
    · exact fun id runs background => s.settled runs background
    · exact fun event id hid => s.begun_visible h hid
    · intro priority choice background
      refine h.submit_refused ?_ choice
      rw [refuses, background, switched]
      exact Bool.or_true _
    · exact fun more id hid background => s.begins_new h hid background
  · intro on running priority choice
    refine submit_taken ?_ choice
    rw [refuses, on, running]
    exact Bool.and_false _

/-- One thumbnail runs, a page nearby and one for the screen wait; then background
work is switched off, and another thumbnail is submitted. -/
def dimmed : List (QueueEvent Nat) :=
  [.submit .thumbnail 0, .look 0, .submit .nearby 0, .submit .visible 0, .setBackground false,
    .submit .thumbnail 0]

/-- Switching on again and submitting a fifth task; the worker is through with the
first task, renders the page for the screen, and looks once more. -/
def brightened : List (QueueEvent Nat) :=
  [.setBackground true, .submit .nearby 0, .finish 0 ⟨.value 7, true⟩, .record 0, .look 0,
    .finish 0 ⟨.value 8, false⟩, .record 0, .look 0]

/-- **Not vacuous**: of the background tasks none but the fifth begins again. -/
theorem background_suppressed_dimmed :
    ((start 1 false).run dimmed).backgroundEnabled = false ∧
    ((start 1 false).run dimmed).running = [1] ∧
    ((start 1 false).run dimmed).isFlagged 1 = true ∧
    ((start 1 false).run dimmed).begins brightened = [3, 5] ∧
    ∀ more, ∀ id ∈ ((start 1 false).run dimmed).begins more,
      (((start 1 false).run dimmed).run more).isBackground id = true → 4 < id := by
  have off : ((start 1 false).run dimmed).backgroundEnabled = false := by decide +kernel
  have runs : ((start 1 false).run dimmed).running = [1] := by decide +kernel
  have thumbnail : ((start 1 false).run dimmed).isBackground 1 = true := by decide +kernel
  have four : ((start 1 false).run dimmed).tasks.size = 4 := by decide +kernel
  obtain ⟨_, settled, _, _, later⟩ := (background_suppressed 1 false dimmed).2.2.1 off
  have flagged := (settled 1 (runs ▸ List.mem_singleton_self 1) thumbnail).1
  exact ⟨off, runs, flagged, by decide +kernel, four ▸ later⟩

end ReadAhead.Queue
