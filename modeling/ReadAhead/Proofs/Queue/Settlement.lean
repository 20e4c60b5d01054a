import ReadAhead.Proofs.Queue.Waking
import ReadAhead.Queue.Crew
import ReadAhead.Queue.Settle

/-!
  Settlement — letting the workers go on comes to an end

  `settle` takes as many steps of workers as the potential of the queue says. Each of them
  lowers the potential: a task that waits is worth four, which is more than the worker
  gains that takes it, and whatever else a worker does leaves it closer to sleep. So the
  steps never run out before the workers have come to rest, and allowing more of them
  changes nothing.

  What is proved:
    1. `Accounted.potential_workerStep` — a step that a worker can take lowers the
       potential.
    2. `Accounted.started_eq` — the tasks that are told to be started by a step are those
       that begin in it.
    3. `settle_induction` — what every step of a worker keeps is kept by settling.
    4. `Accounted.settles` — settling is a run of steps of workers, in which the tasks
       begin that are told; after it no worker can take a step; and more steps would have
       come to the same.
    5. `Accounted.settle_alone` — one worker by itself, whose work is always ready to end,
       ends what waits in the order of urgency (`Underway`).
-/

namespace ReadAhead

def Worker.executed? : Worker → Option TaskNumber
  | .executing id => some id
  | _ => none

theorem Worker.potential_set {ws : List Worker} {i : Nat} {a : Worker} (h : ws[i]? = some a)
    (b : Worker) : ((ws.set i b).map potential).foldl (· + ·) 0 + a.potential
      = (ws.map potential).foldl (· + ·) 0 + b.potential := by
  obtain ⟨hi, rfl⟩ := List.getElem?_eq_some_iff.mp h
  have before := ((List.getElem_cons_eraseIdx_perm hi).map potential).sum_nat
  have after := ((List.set_perm_cons_eraseIdx hi b).map potential).sum_nat
  rw [List.map_cons, List.sum_cons] at before after
  rw [← List.sum_eq_foldl, ← List.sum_eq_foldl]
  omega

namespace Queue

variable {σ α : Type} {q : Queue α} {works : Works σ α} {world world' : σ}
variable {event : QueueEvent α} {i : Nat} {w : Worker}

/-! ## The step that is taken -/

theorem workerStep_of_nextStep (next : q.nextStep works world = some (event, world')) :
    ∃ i w, q.workers[i]? = some w ∧ q.workerStep works world i w = some (event, world') := by
  obtain ⟨⟨i, w⟩, hw, step⟩ := List.exists_of_findSome?_eq_some next
  obtain ⟨j, hj, same⟩ := List.mem_mapIdx.mp hw
  cases same
  exact ⟨i, q.workers[i], List.getElem?_eq_getElem hj, step⟩

theorem nextStep_eq_none : q.nextStep works world = none ↔
    ∀ i w, q.workers[i]? = some w → q.workerStep works world i w = none := by
  unfold nextStep
  rw [List.findSome?_eq_none_iff]
  constructor
  · intro rests i w hw
    obtain ⟨hi, rfl⟩ := List.getElem?_eq_some_iff.mp hw
    exact rests (i, q.workers[i]) (List.mem_mapIdx.mpr ⟨i, hi, rfl⟩)
  · rintro rests ⟨i, w⟩ hw
    obtain ⟨j, hj, same⟩ := List.mem_mapIdx.mp hw
    cases same
    exact rests i _ (List.getElem?_eq_getElem hj)

theorem workerStep_eq_some (step : q.workerStep works world i w = some (event, world')) :
    (w = .awake ∧ event = .look i ∧ world' = world) ∨
    (∃ id workEnd, w = .executing id ∧ works id (q.isFlagged id) world = some (workEnd, world') ∧
      event = .finish i workEnd) ∨
    (∃ id ending, w = .recording id ending ∧ event = .record i ∧ world' = world) := by
  cases w with
  | awake =>
    cases step
    exact .inl ⟨rfl, rfl, rfl⟩
  | executing id =>
    obtain ⟨⟨workEnd, after⟩, done, same⟩ := Option.map_eq_some_iff.mp step
    cases same
    exact .inr (.inl ⟨id, workEnd, rfl, done, rfl⟩)
  | recording id ending =>
    cases step
    exact .inr (.inr ⟨id, ending, rfl, rfl, rfl⟩)
  | asleep | gone => cases step

theorem worker?_workerStep (step : q.workerStep works world i w = some (event, world')) :
    event.worker? = some i := by
  rcases workerStep_eq_some step with ⟨_, rfl, _⟩ | ⟨_, _, _, _, rfl⟩ | ⟨_, _, _, rfl, _⟩ <;> rfl

/-! ## Each step lowers the potential -/

/-- One worker does something else, and what waits may have become less: the potential is
lower if these two are worth less together. -/
theorem potential_lt {q' : Queue α} {b : Worker} (hw : q.workers[i]? = some w)
    (workers : q'.workers = q.workers.set i b)
    (less : 4 * q'.pending.size + b.potential < 4 * q.pending.size + w.potential) :
    q'.potential < q.potential := by
  have exchanged := Worker.potential_set hw b
  unfold potential
  rw [workers]
  omega

theorem Accounted.potential_workerStep (h : q.Accounted []) (hw : q.workers[i]? = some w)
    (step : q.workerStep works world i w = some (event, world')) :
    (q.apply event).potential < q.potential := by
  rcases workerStep_eq_some step with
    ⟨rfl, rfl, _⟩ | ⟨id, workEnd, rfl, _, rfl⟩ | ⟨id, ending, rfl, rfl, _⟩
  · show (q.look i).potential < q.potential
    rcases h.look_awake hw with ⟨_, eq⟩ | ⟨_, _, eq⟩ | ⟨t, rest, _, _, pop, eq⟩
    · rw [eq]
      exact potential_lt hw rfl (Nat.lt_succ_self _)
    · rw [eq]
      exact potential_lt hw rfl (Nat.lt_succ_self _)
    · -- the task that it takes does not wait any more
      rw [eq]
      refine potential_lt hw rfl ?_
      rw [Pending.size_pop pop]
      show 4 * rest.size + 3 < 4 * (rest.size + 1) + 1
      omega
  · show (q.finish i workEnd).potential < q.potential
    obtain ⟨_, _, _, _, eq⟩ := finish_frame hw workEnd
    rw [eq]
    exact potential_lt hw rfl (Nat.lt_succ_self _)
  · show (q.record i).potential < q.potential
    obtain ⟨_, _, _, recorded, _⟩ := record_eq hw
    rw [recorded]
    exact potential_lt hw rfl (Nat.lt_succ_self _)

theorem Accounted.potential_nextStep (h : q.Accounted [])
    (next : q.nextStep works world = some (event, world')) :
    (q.apply event).potential < q.potential := by
  obtain ⟨i, w, hw, step⟩ := workerStep_of_nextStep next
  exact h.potential_workerStep hw step

/-! ## What a step starts -/

theorem started_of_subset {q' : Queue α} (sub : q'.running ⊆ q.running) : q.started q' = [] := by
  refine List.filter_eq_nil_iff.mpr fun id hid => ?_
  rw [List.contains_iff_mem.mpr (sub hid)]
  exact Bool.false_ne_true

/-- The running tasks that did not run before are those that a worker executes and did
not execute before. -/
theorem Accounted.started_eq (h : q.Accounted []) (own : event.worker?.isSome = true) :
    q.started (q.apply event) = q.begun event := by
  rcases h.begun_cases event with nothing | ⟨worker, t, rest, rfl, hw, _, _, pop, given, one⟩
  · rw [nothing]
    refine started_of_subset ?_
    cases event with
    | look worker =>
      rcases h.look_cases worker with same | ⟨w, hw, idle, eq⟩ | ⟨t, rest, hw, _, _, pop, eq⟩
      · rw [show q.apply (.look worker) = q from same]
        exact List.Subset.refl _
      · rw [show q.apply (.look worker) = q.setWorker worker w from eq]
        exact List.Subset.refl _
      · -- then a task would begin
        have began : q.begun (.look worker) = [t.id] := by
          unfold begun
          rw [show q.apply (.look worker) = q.given worker t rest from eq]
          exact Worker.begun_set hw _
        rw [nothing] at began
        cases began
    | finish worker workEnd =>
      show (q.finish worker workEnd).running ⊆ q.running
      rcases finish_cases q worker workEnd with ⟨id, hw⟩ | same
      · obtain ⟨_, _, _, _, eq⟩ := finish_frame hw workEnd
        rw [eq]
        exact List.Subset.refl _
      · rw [same]
        exact List.Subset.refl _
    | record worker =>
      show (q.record worker).running ⊆ q.running
      rcases record_cases q worker with ⟨id, ending, hw⟩ | same
      · obtain ⟨_, _, _, recorded, _⟩ := record_eq hw
        rw [recorded]
        exact List.erase_subset
      · rw [same]
        exact List.Subset.refl _
    | submit | cancel | setBackground | pause | resume | stop => cases own
  · have waits : t.id ∈ q.waiting :=
      List.mem_map_of_mem ((Heap.toList_pop pop).mem_iff.mpr List.mem_cons_self)
    have apart : q.running.contains t.id = false := by
      rw [← Bool.not_eq_true, List.contains_iff_mem]
      exact fun runs => h.running_not_waiting runs waits
    have others : q.started q = [] := started_of_subset (List.Subset.refl _)
    rw [one, given]
    show (t.id :: q.running).filter (!q.running.contains ·) = [t.id]
    rw [List.filter_cons_of_pos (by rw [apart]; rfl)]
    exact congrArg (t.id :: ·) others

/-! ## Settling -/

theorem settle_induction (works : Works σ α) {motive : Queue α → σ → Prop}
    (step : ∀ q world i w event world', q.workers[i]? = some w →
      q.workerStep works world i w = some (event, world') → motive q world →
      motive (q.apply event) world')
    (start : motive q world) :
    motive (q.settle works world).2.1 (q.settle works world).2.2 := by
  suffices within : ∀ steps (q : Queue α) world, motive q world →
      motive (settleWithin works steps q world).2.1 (settleWithin works steps q world).2.2 from
    within _ q world start
  intro steps
  induction steps with
  | zero => exact fun _ _ now => now
  | succ steps ih =>
    intro q world now
    unfold settleWithin
    cases next : q.nextStep works world with
    | none => exact now
    | some taken =>
      obtain ⟨i, w, hw, can⟩ := workerStep_of_nextStep next
      exact ih _ _ (step q world i w _ _ hw can now)

theorem Accounted.nextStep_settleWithin (h : q.Accounted []) {steps : Nat}
    (enough : q.potential ≤ steps) :
    (settleWithin works steps q world).2.1.nextStep works (settleWithin works steps q world).2.2
      = none := by
  induction steps generalizing q world with
  | zero =>
    cases next : q.nextStep works world with
    | none => exact next
    | some taken => exact absurd (h.potential_nextStep next) (by omega)
  | succ steps ih =>
    unfold settleWithin
    cases next : q.nextStep works world with
    | none => exact next
    | some taken =>
      have less := h.potential_nextStep next
      exact ih (apply_accounted h _) (by omega)

/-- Steps beyond the potential are not used. -/
theorem Accounted.settleWithin_eq (h : q.Accounted []) {steps : Nat}
    (enough : q.potential ≤ steps) :
    settleWithin works steps q world = q.settle works world := by
  suffices same : ∀ steps steps' (q : Queue α) world, q.Accounted [] → q.potential ≤ steps →
      q.potential ≤ steps' →
      settleWithin works steps q world = settleWithin works steps' q world from
    same _ _ q world h enough (Nat.le_refl _)
  -- whoever still has a step to take has potential left, so both numbers are positive
  intro steps
  induction steps with
  | zero =>
    intro steps' q world h enough _
    cases steps' with
    | zero => rfl
    | succ steps' =>
      cases next : q.nextStep works world with
      | none => simp only [settleWithin, next]
      | some taken => exact absurd (h.potential_nextStep next) (by omega)
  | succ steps ih =>
    intro steps' q world h enough enough'
    cases next : q.nextStep works world with
    | none => cases steps' <;> simp only [settleWithin, next]
    | some taken =>
      have less := h.potential_nextStep next
      cases steps' with
      | zero => omega
      | succ steps' =>
        simp only [settleWithin, next]
        rw [ih steps' _ _ (apply_accounted h _) (by omega) (by omega)]

theorem Accounted.settleWithin_run (h : q.Accounted []) (steps : Nat) :
    ∃ events : List (QueueEvent α), (∀ event ∈ events, event.worker?.isSome = true) ∧
      (settleWithin works steps q world).2.1 = q.run events ∧
      (settleWithin works steps q world).1 = q.begins events := by
  induction steps generalizing q world with
  | zero => exact ⟨[], fun _ among => absurd among List.not_mem_nil, rfl, rfl⟩
  | succ steps ih =>
    unfold settleWithin
    cases next : q.nextStep works world with
    | none => exact ⟨[], fun _ among => absurd among List.not_mem_nil, rfl, rfl⟩
    | some taken =>
      obtain ⟨event, world'⟩ := taken
      obtain ⟨i, w, _, can⟩ := workerStep_of_nextStep next
      have own : event.worker?.isSome = true := by rw [worker?_workerStep can, Option.isSome_some]
      obtain ⟨events, owns, final, starts⟩ := ih (apply_accounted h event)
      refine ⟨event :: events, ?_, final, ?_⟩
      · intro event' hevent
        rcases List.mem_cons.mp hevent with rfl | later
        · exact own
        · exact owns event' later
      · exact congr (congrArg _ (h.started_eq own)) starts

/-- **Settling comes to an end.** It is a run of steps of workers, and the tasks that it
tells begin in it, in this order. After it no worker can take a step: each of them sleeps,
is gone, or executes work that is not ready to end. And any larger number of steps comes to
the same. -/
theorem Accounted.settles (h : q.Accounted []) (works : Works σ α) (world : σ) :
    let (begun, q', world') := q.settle works world
    (∃ events : List (QueueEvent α), (∀ event ∈ events, event.worker?.isSome = true) ∧
      q' = q.run events ∧ begun = q.begins events) ∧
    (∀ w ∈ q'.workers, w = .asleep ∨ w = .gone ∨
      ∃ id, w = .executing id ∧ works id (q'.isFlagged id) world' = none) ∧
    ∀ steps ≥ q.potential, settleWithin works steps q world = q.settle works world := by
  refine ⟨h.settleWithin_run _, ?_, fun steps enough => h.settleWithin_eq enough⟩
  intro w hw
  obtain ⟨i, hi⟩ := List.mem_iff_getElem?.mp hw
  have rests := nextStep_eq_none.mp (h.nextStep_settleWithin (Nat.le_refl _)) i w hi
  cases w with
  | asleep => exact .inl rfl
  | gone => exact .inr (.inl rfl)
  | executing id => exact .inr (.inr ⟨id, rfl, Option.map_eq_none_iff.mp rests⟩)
  | awake | recording => cases rests

/-! ## One worker by itself -/

/-- A task whose work ends in this way, while its token is not flagged from outside. -/
def endedBy (workEnd : WorkEnd α) : Task α → Task α :=
  Task.settle workEnd.flagsToken (workEnd.toTaskAnswer workEnd.flagsToken)

/-- One worker on its way through what waits in a queue: the tickets whose tasks have
ended, the one that it holds, and what has become of the queue and the world. -/
structure Underway (q₀ : Queue α) (world₀ : σ) (ends : TaskNumber → WorkEnd α)
    (effect : σ → TaskNumber → σ) (past held : List Ticket) (q : Queue α) (world : σ) : Prop where
  accounted : q.Accounted []
  attended : q.Attended
  on : q.stopped = false
  going : q.paused = false
  alone : ∃ w, q.workers = [w] ∧ w ≠ .gone ∧ held.map Ticket.id = w.executed?.toList
  order : q₀.pending.upcoming = past ++ held ++ q.pending.upcoming
  table : ∀ id, q.task? id = if id ∈ past.map Ticket.id
    then (q₀.task? id).map (endedBy (ends id)) else q₀.task? id
  effects : world = (past.map Ticket.id).foldl effect world₀

section Underway

variable {q₀ : Queue α} {world₀ : σ} {ends : TaskNumber → WorkEnd α}
variable {effect : σ → TaskNumber → σ} {past held : List Ticket}
variable (u : Underway q₀ world₀ ends effect past held q world)
include u

theorem Underway.worker (hw : q.workers[i]? = some w) :
    i = 0 ∧ q.workers = [w] ∧ held.map Ticket.id = w.executed?.toList := by
  obtain ⟨w', alone, _, holds⟩ := u.alone
  rw [alone] at hw
  cases i with
  | zero =>
    cases hw
    exact ⟨rfl, alone, holds⟩
  | succ i => cases hw

theorem Underway.kept (event : QueueEvent α) :
    (q.apply event).Accounted [] ∧ (q.apply event).Attended :=
  ⟨apply_accounted u.accounted event, u.accounted.attended_apply u.attended event⟩

theorem Underway.task?_held (h : q₀.Accounted []) {t : Ticket} (holds : held = [t]) :
    q₀.task? t.id = some ⟨t.priority, false, none⟩ ∧ t.id ∉ past.map Ticket.id := by
  have order := u.order
  rw [holds, List.append_assoc, List.singleton_append] at order
  have distinct : (q₀.pending.upcoming.map Ticket.id).Nodup :=
    ((Pending.upcoming_perm _).map _).nodup_iff.mpr (List.nodup_append.mp h.distinct).1
  rw [order, List.map_append, List.map_cons] at distinct
  refine ⟨h.fresh t ((Pending.upcoming_perm _).mem_iff.mp ?_), ?_⟩
  · rw [order]
    exact List.mem_append_right _ List.mem_cons_self
  · intro ended
    exact (List.nodup_append.mp distinct).2.2 _ ended _ List.mem_cons_self rfl

theorem Underway.unflagged (h : q₀.Accounted []) {t : Ticket} (holds : held = [t]) :
    q.isFlagged t.id = false := by
  obtain ⟨fresh, apart⟩ := u.task?_held h holds
  rw [isFlagged, u.table, if_neg apart, fresh]
  rfl

theorem Underway.look (hw : q.workers[i]? = some .awake) :
    ∃ held, Underway q₀ world₀ ends effect past held (q.look i) world := by
  obtain ⟨rfl, alone, holds⟩ := u.worker hw
  have nothing : held = [] := List.map_eq_nil_iff.mp holds
  obtain ⟨accounted, attended⟩ : (q.look 0).Accounted [] ∧ (q.look 0).Attended :=
    u.kept (.look 0)
  rcases u.accounted.look_awake hw with ⟨off, _⟩ | ⟨_, _, eq⟩ | ⟨t, rest, _, _, pop, eq⟩
  · exact absurd (u.on.symm.trans off) Bool.false_ne_true
  · rw [eq] at accounted attended ⊢
    refine ⟨[], accounted, attended, u.on, u.going, ⟨.asleep, ?_, nofun, rfl⟩, ?_, u.table,
      u.effects⟩
    · show q.workers.set 0 .asleep = [.asleep]
      rw [alone]
      rfl
    · rw [← nothing]
      exact u.order
  · rw [eq] at accounted attended ⊢
    refine ⟨[t], accounted, attended, u.on, u.going, ⟨.executing t.id, ?_, nofun, rfl⟩, ?_, u.table,
      u.effects⟩
    · show q.workers.set 0 (.executing t.id) = [.executing t.id]
      rw [alone]
      rfl
    · have order := u.order
      rwa [nothing, List.append_nil, Pending.upcoming_pop pop, ← List.singleton_append,
        ← List.append_assoc] at order

theorem Underway.finish (h : q₀.Accounted []) {id : TaskNumber}
    (hw : q.workers[i]? = some (.executing id)) :
    ∃ past, Underway q₀ world₀ ends effect past [] (q.finish i (ends id)) (effect world id) := by
  obtain ⟨rfl, alone, holds⟩ := u.worker hw
  obtain ⟨t, rfl, rfl⟩ := List.map_eq_singleton_iff.mp holds
  obtain ⟨fresh, apart⟩ := u.task?_held h rfl
  obtain ⟨accounted, attended⟩ : (q.finish 0 (ends t.id)).Accounted [] ∧
      (q.finish 0 (ends t.id)).Attended := u.kept (.finish 0 (ends t.id))
  have ended : q.answer t.id (ends t.id) = (ends t.id).toTaskAnswer (ends t.id).flagsToken := by
    rw [answer, u.unflagged h rfl, Bool.false_or]
  have table := task?_finish hw (ends t.id)
  obtain ⟨tasks, ending, _, _, eq⟩ := finish_frame hw (ends t.id)
  refine ⟨past ++ [t], accounted, attended, ?_, ?_, ⟨.recording t.id ending, ?_, nofun, rfl⟩,
    ?_, ?_, ?_⟩
  · rw [eq]
    exact u.on
  · rw [eq]
    exact u.going
  · rw [eq, alone]
    rfl
  · rw [eq, List.append_nil]
    exact u.order
  · intro j
    rw [table, u.table, ended, List.map_append, List.map_singleton]
    by_cases same : j = t.id
    · subst same
      rw [if_pos rfl, if_neg apart, if_pos (List.mem_append_right _ List.mem_cons_self)]
      rfl
    · simp [same]
  · rw [u.effects, List.map_append, List.map_singleton, List.foldl_append]
    rfl

theorem Underway.record {id : TaskNumber} {ending : Option Ending}
    (hw : q.workers[i]? = some (.recording id ending)) :
    Underway q₀ world₀ ends effect past held (q.record i) world := by
  obtain ⟨rfl, alone, holds⟩ := u.worker hw
  obtain ⟨accounted, attended⟩ : (q.record 0).Accounted [] ∧ (q.record 0).Attended :=
    u.kept (.record 0)
  obtain ⟨_, _, _, eq, _⟩ := record_eq hw
  rw [eq] at accounted attended ⊢
  refine ⟨accounted, attended, u.on, u.going, ⟨.awake, ?_, nofun, holds⟩, u.order, u.table,
    u.effects⟩
  show q.workers.set 0 .awake = [.awake]
  rw [alone]
  rfl

theorem Underway.workerStep (h : q₀.Accounted [])
    (ready : ∀ id world, works id false world = some (ends id, effect world id))
    (hw : q.workers[i]? = some w)
    (step : q.workerStep works world i w = some (event, world')) :
    ∃ past held, Underway q₀ world₀ ends effect past held (q.apply event) world' := by
  rcases workerStep_eq_some step with
    ⟨rfl, rfl, rfl⟩ | ⟨id, workEnd, rfl, done, rfl⟩ | ⟨id, ending, rfl, rfl, rfl⟩
  · exact ⟨past, u.look hw⟩
  · obtain ⟨_, _, holds⟩ := u.worker hw
    obtain ⟨t, held, rfl⟩ := List.map_eq_singleton_iff.mp holds
    rw [u.unflagged h held, ready] at done
    cases done
    obtain ⟨past, further⟩ := u.finish h hw
    exact ⟨past, [], further⟩
  · exact ⟨past, held, u.record hw⟩

theorem Underway.past_of_rest (h : q₀.Accounted [])
    (ready : ∀ id world, works id false world = some (ends id, effect world id))
    (rests : q.nextStep works world = none) :
    q.workers = [.asleep] ∧ q.pending = .empty ∧ past = q₀.pending.upcoming := by
  obtain ⟨w, alone, stays, holds⟩ := u.alone
  have hw : q.workers[0]? = some w := by
    rw [alone]
    rfl
  have rests := nextStep_eq_none.mp rests 0 w hw
  cases w with
  | awake | recording => cases rests
  | gone => exact absurd rfl stays
  | executing id =>
    obtain ⟨t, held, rfl⟩ := List.map_eq_singleton_iff.mp holds
    have waits := Option.map_eq_none_iff.mp rests
    rw [u.unflagged h held, ready] at waits
    cases waits
  | asleep =>
    -- nobody is awake for what waits, so nothing does
    have sleeps : .asleep ∈ q.workers := List.mem_of_getElem? hw
    have enough := (u.attended.serving u.on u.going).resolve_left fun awake => awake sleeps
    rw [alone] at enough
    have empty : q.pending = .empty := by
      cases hp : q.pending with
      | empty => rfl
      | node top left right =>
        rw [hp] at enough
        exact absurd enough (Nat.not_succ_le_zero _)
    refine ⟨alone, empty, ?_⟩
    rw [u.order, List.map_eq_nil_iff.mp holds, empty, List.append_nil]
    exact (List.append_nil _).symm

end Underway

/-- **One worker goes through what waits, by urgency.** If nobody else works on the queue,
it is neither paused nor stopped, and work is always ready to end, then settling ends
exactly the tasks that wait, and their work takes effect in the order in which they are
popped; the worker sleeps then, and nothing waits or runs. -/
theorem Accounted.settle_alone (h : q.Accounted []) (on : q.stopped = false)
    (going : q.paused = false) (alone : q.workers = [.awake])
    {ends : TaskNumber → WorkEnd α} {effect : σ → TaskNumber → σ}
    (ready : ∀ id world, works id false world = some (ends id, effect world id)) (world : σ) :
    let (_, q', world') := q.settle works world
    world' = (q.pending.upcoming.map Ticket.id).foldl effect world ∧
    (∀ id, q'.task? id
      = if id ∈ q.waiting then (q.task? id).map (endedBy (ends id)) else q.task? id) ∧
    q'.Accounted [] ∧ q'.pending = .empty ∧ q'.workers = [.asleep] ∧ q'.stopped = false ∧
    q'.paused = false := by
  have attended : q.Attended := by
    refine .of_awake fun sleeps => ?_
    rw [alone] at sleeps
    cases List.mem_singleton.mp sleeps
  have start : Underway q world ends effect [] [] q world :=
    ⟨h, attended, on, going, ⟨.awake, alone, nofun, rfl⟩, rfl,
      fun _ => (if_neg List.not_mem_nil).symm, rfl⟩
  obtain ⟨past, held, u⟩ := settle_induction works
    (motive := fun q' world' => ∃ past held, Underway q world ends effect past held q' world')
    (fun _ _ _ _ _ _ hw step ⟨_, _, u⟩ => u.workerStep h ready hw step) ⟨[], [], start⟩
  obtain ⟨asleep, empty, all⟩ := u.past_of_rest h ready (h.nextStep_settleWithin (Nat.le_refl _))
  subst all
  refine ⟨u.effects, ?_, u.accounted, empty, asleep, u.on, u.going⟩
  intro id
  have waits : id ∈ q.pending.upcoming.map Ticket.id ↔ id ∈ q.waiting :=
    ((Pending.upcoming_perm _).map _).mem_iff
  have table := u.table id
  simp only [waits] at table
  exact table

/-- Two workers, and the work of the first task is not ready to end: the other worker goes
through the rest, the urgent task first. -/
example :
    let works : Works Unit Nat := fun id _ world =>
      if id = 1 then none else some (.ofResult (.value id), world)
    let q : Queue Nat := (start 2 false).run [.submit .visible 0, .look 0, .submit .nearby 0,
      .submit .visible 0]
    (q.settle works ()).1 = [3, 2] ∧ (q.settle works ()).2.1.workers = [.executing 1, .asleep] := by
  decide +kernel

end Queue

end ReadAhead
