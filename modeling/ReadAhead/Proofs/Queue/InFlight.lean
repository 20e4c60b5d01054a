import ReadAhead.Proofs.Queue.Conservation
import ReadAhead.Proofs.Queue.Late

/-!
  In flight — what is counted as in flight, and what has not ended

  The tasks in flight are those that wait and those that are with a worker. A task
  that is cancelled while it runs has ended, but it stays with its worker until its
  work ends: it is in flight and has ended, so it is counted on both sides of the
  books. No other task is, except while a worker is about to record an end.

  What is proved:
    1. `Accounted.count_open` — the tasks that have not ended, counted in the table,
       are those among the tasks in flight.
    2. `run_unfinished` — in every reachable state, a task that a worker executes has
       not ended, or was cancelled.
    3. `in_flight_eq` — the tasks in flight are those that have not ended and those
       that run although they have; when no end is about to be recorded, the latter
       are the cancelled ones that workers go on with.
    4. `in_flight_eq_overdue` (anti-vacuity), `in_flight_overcounts` — one task was
       cancelled while it runs, and is in flight.
-/

namespace ReadAhead.Queue

variable {α : Type} {q : Queue α}

/-! ## Counting by number -/

theorem countP_range {β : Type} (l : List β) (p : β → Bool) :
    (List.range l.length).countP (fun i => l[i]?.any p) = l.countP p := by
  induction l with
  | nil => rfl
  | cons a l ih =>
    rw [List.length_cons, List.range_succ_eq_map, List.countP_cons, List.countP_map,
      List.countP_cons, ← ih]
    rfl

theorem countP_numbers (q : Queue α) (p : Task α → Bool) :
    (List.range' 1 q.tasks.size).countP (fun id => (q.task? id).any p) = q.tasks.countP p := by
  calc (List.range' 1 q.tasks.size).countP (fun id => (q.task? id).any p)
    _ = (List.range q.tasks.size).countP (fun i => (q.task? (1 + i)).any p) := by
      rw [List.range'_eq_map_range, List.countP_map]
      rfl
    _ = (List.range q.tasks.toList.length).countP (fun i => q.tasks.toList[i]?.any p) := by
      rw [Array.length_toList]
      refine List.countP_congr fun i _ => ?_
      rw [Nat.add_comm, task?, if_neg (Nat.succ_ne_zero i), Nat.add_sub_cancel, Array.getElem?_toList]
    _ = q.tasks.countP p := by rw [countP_range, Array.countP_toList]

/-- **A task that has not ended is in flight**, once, so it may be counted there. -/
theorem Accounted.count_open (h : q.Accounted []) :
    q.tasks.countP (·.result.isNone) = (q.waiting ++ q.running).countP q.isOpen := by
  have same : ((List.range' 1 q.tasks.size).filter q.isOpen).Perm
      ((q.waiting ++ q.running).filter q.isOpen) := by
    refine (List.perm_ext_iff_of_nodup (.filter _ List.nodup_range') (h.distinct.filter _)).mpr ?_
    intro id
    rw [List.mem_filter, List.mem_filter, List.mem_append]
    refine and_congr_left fun still => ⟨fun _ => h.placed_of_isOpen still, fun _ => ?_⟩
    obtain ⟨t, ht, _⟩ := (isOpen_iff q id).mp still
    have known : ¬ q.task? id = none := by simp [ht]
    rw [task?_eq_none] at known
    exact List.mem_range'_1.mpr (by omega)
  calc q.tasks.countP (·.result.isNone)
    _ = (List.range' 1 q.tasks.size).countP q.isOpen := (countP_numbers q _).symm
    _ = (q.waiting ++ q.running).countP q.isOpen := by
      rw [List.countP_eq_length_filter, same.length_eq, List.countP_eq_length_filter]

/-! ## What a worker executes -/

theorem Accounted.holder_unique (h : q.Accounted []) {i j : Nat} {a b : Worker} {id : TaskNumber}
    (hi : q.workers[i]? = some a) (hj : q.workers[j]? = some b) (ha : a.task? = some id)
    (hb : b.task? = some id) : i = j := by
  have held : (q.workers.filterMap Worker.task?).Nodup := by
    have held := h.held.nodup_iff.mp (List.nodup_append.mp h.distinct).2.1
    rw [Worker.busy, List.filterMap_filter] at held
    refine (congrArg List.Nodup (List.filterMap_congr fun w _ => ?_)).mp held
    cases w <;> rfl
  rw [List.Nodup, List.pairwise_filterMap] at held
  obtain ⟨ii, rfl⟩ := List.getElem?_eq_some_iff.mp hi
  obtain ⟨jj, rfl⟩ := List.getElem?_eq_some_iff.mp hj
  have apart := List.pairwise_iff_getElem.mp held
  rcases Nat.lt_trichotomy i j with less | same | more
  · exact absurd rfl (apart i j ii jj less id ha id hb)
  · exact same
  · exact absurd rfl (apart j i jj ii more id hb id ha)

theorem Accounted.executing_apply (h : q.Accounted []) (event : QueueEvent α) {worker : Nat}
    {id : TaskNumber} (hw : (q.apply event).workers[worker]? = some (.executing id)) :
    q.workers[worker]? = some (.executing id) ∨ id ∈ q.waiting := by
  rcases h.workers_apply event with
    same | woken | ⟨i, a, b, hi, idle, set⟩ | ⟨i, t, rest, _, hi, _, _, pop, eq⟩
  · rw [same] at hw
    exact .inl hw
  · rw [woken, List.getElem?_map] at hw
    obtain ⟨w, hw, wakes⟩ := Option.map_eq_some_iff.mp hw
    cases w <;> cases wakes
    exact .inl hw
  · rw [set, List.getElem?_set] at hw
    split at hw
    · split at hw
      · exact absurd (Option.some.inj hw) (idle id)
      · cases hw
    · exact .inl hw
  · rw [eq] at hw
    replace hw : (q.workers.set i (.executing t.id))[worker]? = some (.executing id) := hw
    rw [List.getElem?_set] at hw
    split at hw
    · split at hw
      · cases hw
        refine .inr (List.mem_map_of_mem ?_)
        exact (Heap.toList_pop pop).mem_iff.mpr List.mem_cons_self
      · cases hw
    · exact .inl hw

/-- A task that a worker executes has not ended, or was cancelled. -/
def Unfinished (q : Queue α) : Prop :=
  ∀ (worker : Nat) (id : TaskNumber) (r : TaskAnswer α),
    q.workers[worker]? = some (.executing id) → q.result? id = some r → r = .error .cancelled

theorem Accounted.unfinished_apply (h : q.Accounted []) (u : q.Unfinished) (event : QueueEvent α) :
    (q.apply event).Unfinished := by
  intro worker id r hw hr
  obtain ⟨t', ht', ended⟩ := Option.bind_eq_some_iff.mp hr
  have before {t : Task α} (ht : q.task? id = some t) {r : TaskAnswer α} (hr : t.result = some r) :
      r = .error .cancelled := by
    rcases h.executing_apply event hw with executed | waits
    · refine u worker id r executed ?_
      rw [result?, ht]
      exact hr
    · obtain ⟨_, ht', unended⟩ := (isOpen_iff q id).mp (h.isOpen_waiting waits)
      cases ht.symm.trans ht'
      cases unended.symm.trans hr
  have cancelled {t : Task α} (old : ∀ {r}, t.result = some r → r = .error .cancelled)
      (ended : (t.settle true (.error .cancelled)).result = some r) : r = .error .cancelled := by
    cases hr : t.result with
    | none =>
      rw [Task.settle, hr] at ended
      exact (Option.some.inj ended).symm
    | some r' =>
      rw [Task.settle, hr] at ended
      exact (Option.some.inj ended).symm.trans (old hr)
  rcases h.task_apply event ht' with
    ⟨t, ht, rfl | rfl | ⟨i, workEnd, rfl, hi, rfl⟩⟩ | ⟨priority, choice, _, _, rfl | rfl⟩
  · exact before ht ended
  · exact cancelled (before ht) ended
  · -- the worker whose work has ended executes the task no more, and no other one does
    exfalso
    have here : worker = i := by
      rcases h.executing_apply _ hw with executed | waits
      · exact h.holder_unique executed hi rfl rfl
      · exact absurd waits (h.running_not_waiting (h.running_of_executing hi))
    obtain ⟨tasks, ending, _, _, eq⟩ := finish_frame hi workEnd
    rw [here] at hw
    replace hw := (congrArg (·.workers[i]?) eq).symm.trans hw
    rw [List.getElem?_set_self (List.getElem?_eq_some_iff.mp hi).1] at hw
    cases hw
  · cases ended
  · cases ended
    rfl

theorem run_unfinished (workers : Nat) (paused : Bool) (events : List (QueueEvent α)) :
    ((start workers paused).run events).Unfinished := by
  have idle : (start workers paused : Queue α).Unfinished := by
    intro worker id r executed
    cases List.eq_of_mem_replicate (List.mem_of_getElem? executed)
  exact ((start_accounted workers paused).run_induction (fun _ h => h.unfinished_apply) idle events).2

/-! ## What is in flight -/

/-- The tasks that run although they have ended. -/
def overdue (q : Queue α) : List TaskNumber := q.running.filter fun id => (q.result? id).isSome

theorem Accounted.in_flight_overdue (h : q.Accounted []) (known : q.Known) :
    q.statistics.inFlight = q.tasks.countP (·.result.isNone) + q.overdue.length := by
  have waiting : q.waiting.countP q.isOpen = q.pending.size := by
    calc q.waiting.countP q.isOpen
      _ = q.waiting.length := List.countP_eq_length.mpr fun id waits => h.isOpen_waiting waits
      _ = q.pending.toList.length := List.length_map _
      _ = q.pending.size := Heap.length_toList _
  have overdue : q.overdue.length = q.running.countP fun id => decide ¬ q.isOpen id = true := by
    rw [overdue, ← List.countP_eq_length_filter]
    refine List.countP_congr fun id runs => ?_
    obtain ⟨t, ht⟩ := known id runs
    rw [result?, isOpen, ht]
    cases hr : t.result <;> simp [hr]
  calc q.pending.size + q.running.length
    _ = q.waiting.countP q.isOpen + (q.running.countP q.isOpen + q.overdue.length) := by
      rw [waiting, overdue, ← List.length_eq_countP_add_countP]
    _ = q.tasks.countP (·.result.isNone) + q.overdue.length := by
      rw [h.count_open, List.countP_append, Nat.add_assoc]

/-- Where no end is about to be recorded, a task is overdue only because it was
cancelled, and its work goes on. -/
theorem Accounted.overdue_cancelled (h : q.Accounted []) (u : q.Unfinished)
    (recorded : ∀ id ending, .recording id ending ∉ q.workers) {id : TaskNumber}
    (late : id ∈ q.overdue) :
    q.result? id = some (.error .cancelled) ∧
      ∃ worker : Nat, q.workers[worker]? = some (.executing id) := by
  obtain ⟨runs, ended⟩ := List.mem_filter.mp late
  obtain ⟨r, hr⟩ := Option.isSome_iff_exists.mp ended
  obtain ⟨w, busy, holds⟩ := List.mem_filterMap.mp (h.held.mem_iff.mp runs)
  have listed : w ∈ q.workers := List.mem_of_mem_filter busy
  cases w with
  | executing id' =>
    cases holds
    obtain ⟨worker, hw⟩ := List.mem_iff_getElem?.mp listed
    rw [u worker id r hw hr] at hr
    exact ⟨hr, worker, hw⟩
  | recording id' ending => exact absurd listed (recorded id' ending)
  | awake | asleep | gone => cases holds

/-- **In flight is what has not ended, and what is overdue.** In every reachable
state, the tasks in flight are as many as those that have not ended and those that
run although they have. So they are as many as those that have not ended exactly if no
task that runs has ended. When no end is about to be recorded, the counters and the
tasks in flight make up the submitted tasks and the overdue ones, and an overdue task
is one that was cancelled while a worker executes it. -/
theorem in_flight_eq (workers : Nat) (paused : Bool) (events : List (QueueEvent α)) :
    let q : Queue α := (start workers paused).run events
    let unended := q.tasks.countP (·.result.isNone)
    q.statistics.inFlight = unended + q.overdue.length ∧
    (q.statistics.inFlight = unended ↔ ∀ id ∈ q.running, q.result? id = none) ∧
    ((∀ id ending, .recording id ending ∉ q.workers) →
      q.statistics.submitted + q.overdue.length
        = q.completed + q.failed + q.cancelled + q.statistics.inFlight ∧
      ∀ id ∈ q.overdue, q.result? id = some (.error .cancelled) ∧
        ∃ worker : Nat, q.workers[worker]? = some (.executing id)) := by
  intro q unended
  have h : q.Accounted [] := run_accounted workers paused events
  have inFlight : q.statistics.inFlight = unended + q.overdue.length :=
    h.in_flight_overdue (run_known workers paused events)
  refine ⟨inFlight, ?_, fun recorded => ⟨?_, fun id => ?_⟩⟩
  · rw [inFlight, Nat.add_eq_left, List.length_eq_zero_iff, overdue, List.filter_eq_nil_iff]
    simp only [Option.not_isSome_iff_eq_none]
  · calc q.tasks.size + q.overdue.length
      _ = q.completed + q.failed + q.cancelled + unended + q.overdue.length :=
        congrArg (· + q.overdue.length) (h.size_eq recorded)
      _ = q.completed + q.failed + q.cancelled + q.statistics.inFlight := by
        rw [inFlight, Nat.add_assoc]
  · exact h.overdue_cancelled (run_unfinished workers paused events) recorded

/-- A task is cancelled while it runs, and another one waits. -/
def overtaken : List (QueueEvent Nat) :=
  [.submit .visible 0, .look 0, .submit .nearby 0, .cancel 1]

/-- **Not vacuous**: two tasks are in flight, one of which was cancelled. -/
theorem in_flight_eq_overdue :
    let q := (start 1 false).run overtaken
    q.overdue = [1] ∧ q.statistics.inFlight = 2 ∧ q.tasks.countP (·.result.isNone) = 1 ∧
    q.statistics.submitted + 1 = q.completed + q.failed + q.cancelled + q.statistics.inFlight ∧
    q.result? 1 = some (.error .cancelled) := by
  intro q
  have workers : q.workers = [.executing 1] := by decide +kernel
  have late : q.overdue = [1] := by decide +kernel
  obtain ⟨inFlight, _, counted⟩ := in_flight_eq 1 false overtaken
  obtain ⟨submitted, cancelled⟩ := counted (by
    intro id ending
    rw [workers]
    simp)
  have unended : q.tasks.countP (·.result.isNone) = 1 := by decide +kernel
  refine ⟨late, ?_, unended, ?_, (cancelled 1 (late ▸ List.mem_cons_self)).1⟩
  · calc q.statistics.inFlight
      _ = q.tasks.countP (·.result.isNone) + q.overdue.length := inFlight
      _ = 2 := by rw [unended, late]; rfl
  · rw [late] at submitted
    exact submitted

/-- **What is in flight may have ended**: no task is left that has not, no end is
about to be recorded, and one task is in flight. -/
theorem in_flight_overcounts :
    let q : Queue Nat := (start 1 false).run [.submit .visible 0, .look 0, .cancel 1]
    q.workers = [.executing 1] ∧ q.tasks.countP (·.result.isNone) = 0 ∧
    q.statistics.inFlight = 1 ∧
    q.statistics.submitted ≠ q.completed + q.failed + q.cancelled + q.statistics.inFlight := by
  decide +kernel

end ReadAhead.Queue
