import ReadAhead.Proofs.Queue.Runs

/-!
  Dispatch — which task starts, and when

  A task begins in a step if a worker executes it after the step and did not
  before. Workers that free up, submissions and cancellations may follow one
  another in any order.

  What is proved:
    1. `Accounted.workers_apply` — what a step does to the workers. Only a worker
       that looks at the queue is given a task.
    2. `Later.gone`, `Accounted.begins_not_gone` — a task that does not wait any
       more never waits again, so it does not begin.
    3. `starts_in_order` — over every run of a queue: what begins is first among
       all that wait, by urgency and then by number; the queue is not paused and
       not stopped; the task is not flagged and has not ended; no task begins
       twice, and none after it has ended.
    4. `starts_in_order_urgent` (anti-vacuity) — a run in which four tasks wait,
       one of the two urgent ones is cancelled, and the other one begins.
-/

namespace ReadAhead

namespace Queue

variable {α : Type} {q : Queue α}

def begun (q : Queue α) (event : QueueEvent α) : List TaskNumber :=
  Worker.begun q.workers (q.apply event).workers

def begins (q : Queue α) : List (QueueEvent α) → List TaskNumber
  | [] => []
  | event :: events => q.begun event ++ (q.apply event).begins events

/-! ## What a step does to the workers -/

theorem workers_abandon (q : Queue α) (id : TaskNumber) : (q.abandon id).2.workers = q.workers := by
  rw [abandon_eq, modifyTask_frame]

theorem workers_abandonAll (q : Queue α) (ids : List TaskNumber) :
    (q.abandonAll ids).workers = q.workers := by
  rw [abandonAll_frame]

theorem workers_submit (q : Queue α) (priority : Priority) (choice : Nat) :
    (q.submit priority choice).2.workers = q.workers ∨
      (q.submit priority choice).2.workers = Worker.wakeOne q.workers choice := by
  unfold submit
  dsimp only
  split
  · exact .inl (workers_abandon _ _)
  · exact .inr rfl

theorem workers_cancel (q : Queue α) (id : TaskNumber) :
    (q.cancel id).2.workers = q.workers := by
  by_cases hw : id ∈ q.waiting
  · rw [cancel_waiting hw]
    exact workers_abandon _ _
  · rw [cancel_not_waiting hw]
    split
    · dsimp only
      split
      · exact workers_abandon _ _
      · exact workers_abandon _ _
    · rfl

theorem workers_setBackground (q : Queue α) (enabled : Bool) :
    (q.setBackground enabled).workers = q.workers := by
  unfold setBackground
  split
  · rfl
  · dsimp only
    split
    · rfl
    · exact (workers_abandonAll _ _).trans (workers_abandonAll _ _)

theorem workers_stop (q : Queue α) :
    q.stop.workers = q.workers ∨ q.stop.workers = q.workers.map Worker.woken := by
  unfold stop
  split
  · exact .inl rfl
  · refine .inr (congrArg (List.map Worker.woken) ?_)
    exact (workers_abandonAll _ _).trans (workers_abandonAll _ _)

/-- A step leaves the workers as they are, wakes all of them, gives one of them
something else to do that is not a task, or hands the first task that waits to
one that is awake. -/
theorem Accounted.workers_apply (h : q.Accounted []) (event : QueueEvent α) :
    (q.apply event).workers = q.workers ∨
    (q.apply event).workers = q.workers.map Worker.woken ∨
    (∃ i a b, q.workers[i]? = some a ∧ (∀ id, b ≠ .executing id) ∧
      (q.apply event).workers = q.workers.set i b) ∨
    (∃ worker t rest, event = .look worker ∧ q.workers[worker]? = some .awake ∧
      q.stopped = false ∧ q.paused = false ∧ q.pending.pop? = some (t, rest) ∧
      q.apply event = q.given worker t rest) := by
  cases event with
  | submit priority choice =>
    rcases workers_submit q priority choice with same | woken
    · exact .inl same
    · rcases Worker.wakeOne_cases q.workers choice with same | ⟨i, hi, eq⟩
      · exact .inl (woken.trans same)
      · exact .inr (.inr (.inl ⟨i, _, .awake, hi, nofun, woken.trans eq⟩))
  | look worker =>
    rcases h.look_cases worker with same | ⟨w, hw, idle, eq⟩ | ⟨t, rest, hw, hs, hp, pop, eq⟩
    · exact .inl (congrArg workers same)
    · refine .inr (.inr (.inl ⟨worker, .awake, w, hw, ?_, congrArg workers eq⟩))
      intro id executing
      rw [executing] at idle
      cases idle
    · exact .inr (.inr (.inr ⟨worker, t, rest, rfl, hw, hs, hp, pop, eq⟩))
  | finish worker workEnd =>
    rcases finish_cases q worker workEnd with ⟨id, hw⟩ | same
    · have finished := congrArg workers (finish_eq workEnd hw)
      rw [modifyTask_frame] at finished
      refine .inr (.inr (.inl ⟨worker, _, _, hw, ?_, finished⟩))
      exact nofun
    · exact .inl (congrArg workers same)
  | record worker =>
    rcases record_cases q worker with ⟨id, ending, hw⟩ | same
    · obtain ⟨_, _, _, recorded, _⟩ := record_eq hw
      exact .inr (.inr (.inl ⟨worker, _, .awake, hw, nofun, congrArg workers recorded⟩))
    · exact .inl (congrArg workers same)
  | cancel id => exact .inl (workers_cancel q id)
  | setBackground enabled => exact .inl (workers_setBackground q enabled)
  | pause =>
    refine .inl ?_
    show q.pause.workers = q.workers
    unfold pause
    split <;> rfl
  | resume =>
    show q.resume.workers = _ ∨ q.resume.workers = _ ∨ _
    unfold resume
    split
    · exact .inr (.inl rfl)
    · exact .inl rfl
  | stop =>
    rcases workers_stop q with same | woken
    · exact .inl same
    · exact .inr (.inl woken)

theorem Accounted.begun_cases (h : q.Accounted []) (event : QueueEvent α) :
    q.begun event = [] ∨
    (∃ worker t rest, event = .look worker ∧ q.workers[worker]? = some .awake ∧
      q.stopped = false ∧ q.paused = false ∧ q.pending.pop? = some (t, rest) ∧
      q.apply event = q.given worker t rest ∧ q.begun event = [t.id]) := by
  unfold begun
  rcases h.workers_apply event with
    same | woken | ⟨i, a, b, hi, other, set⟩ | ⟨worker, t, rest, eq, hw, hs, hp, pop, given⟩
  · rw [same]
    exact .inl (Worker.begun_self _)
  · rw [woken]
    exact .inl (Worker.begun_woken _)
  · rw [set, Worker.begun_set hi]
    refine .inl ?_
    cases b with
    | executing id => exact absurd rfl (other id)
    | _ => rfl
  · refine .inr ⟨worker, t, rest, eq, hw, hs, hp, pop, given, ?_⟩
    rw [given]
    exact Worker.begun_set hw _

/-! ## What waits no more -/

/-- A task that was submitted and does not wait any more. -/
def Gone (q : Queue α) (id : TaskNumber) : Prop := id ≤ q.tasks.size ∧ id ∉ q.waiting

theorem Later.gone {q' : Queue α} (later : q.Later q') {id : TaskNumber} (h : q.Gone id) :
    q'.Gone id := by
  refine ⟨Nat.le_trans h.1 later.size_le, ?_⟩
  intro hid
  rcases later.waits_new id hid with hw | new
  · exact h.2 hw
  · exact absurd h.1 (Nat.not_le_of_lt new)

theorem Accounted.gone_of_result (h : q.Accounted []) {id : TaskNumber} {r : TaskAnswer α}
    (ended : q.result? id = some r) : q.Gone id := by
  obtain ⟨task, ht, hr⟩ := Option.bind_eq_some_iff.mp ended
  refine ⟨le_size ht, ?_⟩
  intro hid
  obtain ⟨t, ht', rfl⟩ := List.mem_map.mp hid
  rw [h.fresh t ht', Option.some.injEq] at ht
  subst ht
  cases hr

theorem Accounted.begun_gone (h : q.Accounted []) {event : QueueEvent α} {id : TaskNumber}
    (hid : id ∈ q.begun event) : id ∈ q.waiting ∧ (q.apply event).Gone id := by
  rcases h.begun_cases event with nothing | ⟨worker, t, rest, _, _, _, _, pop, given, one⟩
  · rw [nothing] at hid
    exact absurd hid List.not_mem_nil
  · rw [one, List.mem_singleton] at hid
    subst hid
    have apart : q.waiting.Perm (t.id :: rest.toList.map Ticket.id) := (Heap.toList_pop pop).map _
    have waits : t.id ∈ q.waiting := apart.mem_iff.mpr List.mem_cons_self
    have distinct := apart.nodup_iff.mp (List.nodup_append.mp h.distinct).1
    refine ⟨waits, ?_⟩
    rw [given]
    exact ⟨h.waiting_le_size waits, (List.nodup_cons.mp distinct).1⟩

theorem Accounted.begins_not_gone (h : q.Accounted []) {id : TaskNumber} (gone : q.Gone id)
    (events : List (QueueEvent α)) : id ∉ q.begins events := by
  induction events generalizing q with
  | nil => exact List.not_mem_nil
  | cons event events ih =>
    intro hid
    rcases List.mem_append.mp hid with hid | hid
    · exact gone.2 (h.begun_gone hid).1
    · exact ih (apply_accounted h event) ((h.later_apply event).gone gone) hid

theorem Accounted.begins_nodup (h : q.Accounted []) (events : List (QueueEvent α)) :
    (q.begins events).Nodup := by
  induction events generalizing q with
  | nil => exact List.nodup_nil
  | cons event events ih =>
    have next := apply_accounted h event
    refine List.nodup_append.mpr ⟨?_, ih next, ?_⟩
    · rcases h.begun_cases event with nothing | ⟨_, t, _, _, _, _, _, _, _, one⟩
      · rw [nothing]
        exact List.nodup_nil
      · rw [one]
        exact List.nodup_cons.mpr ⟨List.not_mem_nil, List.nodup_nil⟩
    · -- what begins now is gone after this step, so it does not begin in a later one
      intro id hid id' hid' same
      subst same
      exact next.begins_not_gone (h.begun_gone hid).2 events hid'

/-- **Tasks start by urgency, then in the order of submission.** In every
reachable state and for every step: what begins is what a worker that was awake
takes, while the queue is neither paused nor stopped; its ticket is among those
that wait, and every other one is less urgent, or as urgent and submitted later;
and its token is not flagged and it has not ended. Over a whole run, no task
begins twice, and none begins after it has ended, by cancellation or otherwise. -/
theorem starts_in_order (workers : Nat) (paused : Bool) (events : List (QueueEvent α)) :
    let q : Queue α := (start workers paused).run events
    (∀ event id, id ∈ q.begun event →
      (∃ worker, event = .look worker ∧ q.workers[worker]? = some .awake ∧
        (q.apply event).workers[worker]? = some (.executing id)) ∧
      q.paused = false ∧ q.stopped = false ∧
      (∃ t ∈ q.pending.toList, t.id = id ∧ q.task? id = some ⟨t.priority, false, none⟩ ∧
        ∀ u ∈ q.pending.toList, u.priority.rank < t.priority.rank ∨
          (u.priority = t.priority ∧ t.id ≤ u.id))) ∧
    ((start workers paused).begins events).Nodup ∧
    (∀ id r, q.result? id = some r → ∀ more, id ∉ q.begins more) := by
  intro q
  have h : q.Accounted [] := run_accounted workers paused events
  refine ⟨?_, ?_, ?_⟩
  · intro event id hid
    rcases h.begun_cases event with nothing | ⟨worker, t, rest, eq, hw, hs, hp, pop, given, one⟩
    · rw [nothing] at hid
      exact absurd hid List.not_mem_nil
    · rw [one, List.mem_singleton] at hid
      subst hid
      have waits : t ∈ q.pending.toList := (Heap.toList_pop pop).mem_iff.mpr List.mem_cons_self
      refine ⟨⟨worker, eq, hw, ?_⟩, hp, hs, t, waits, rfl, h.fresh t waits, ?_⟩
      · have inside := (List.getElem?_eq_some_iff.mp hw).1
        rw [given]
        exact List.getElem?_set_self inside
      · intro u hu
        rcases Pending.pop_first h.ordered pop hu with less | ⟨same, le⟩
        · exact .inl less
        · exact .inr ⟨Priority.rank_injective same, le⟩
  · exact (start_accounted workers paused).begins_nodup events
  · intro id r ended more
    exact h.begins_not_gone (h.gone_of_result ended) more

/-- Four tasks wait, and one of the two urgent ones is cancelled. -/
def crowd : List (QueueEvent Nat) :=
  [.submit .thumbnail 0, .submit .nearby 0, .submit .visible 0, .submit .visible 0, .cancel 3]

/-- **Not vacuous**: the fourth task begins, being the only urgent one left, and
the third never does. -/
theorem starts_in_order_urgent :
    4 ∈ ((start 2 false).run crowd).begun (.look 1) ∧
    (∃ t ∈ ((start 2 false).run crowd).pending.toList, t.id = 4 ∧
      ∀ u ∈ ((start 2 false).run crowd).pending.toList, u.priority.rank < t.priority.rank ∨
        (u.priority = t.priority ∧ t.id ≤ u.id)) ∧
    ∀ more, 3 ∉ ((start 2 false).run crowd).begins more := by
  have begins : 4 ∈ ((start 2 false).run crowd).begun (.look 1) := by decide +kernel
  have ended : ((start 2 false).run crowd).result? 3 = some (.error .cancelled) := by
    decide +kernel
  obtain ⟨first, _, never⟩ := starts_in_order 2 false crowd
  obtain ⟨_, _, _, t, waits, same, _, foremost⟩ := first (.look 1) 4 begins
  exact ⟨begins, ⟨t, waits, same, foremost⟩, never 3 _ ended⟩

end Queue

end ReadAhead
