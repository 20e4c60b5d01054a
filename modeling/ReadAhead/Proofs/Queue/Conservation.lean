import ReadAhead.Proofs.Queue.Runs

/-!
  Conservation of tasks — none is lost, none ends twice, none is counted twice

  The end of a task's work is one step, in which its flag is read and the task
  resolved. A cancellation between the two would resolve the task, and then it
  does not matter what the flag said before: what comes second is discarded.

  What is proved:
    1. `tasks_conserved` — over every run of a queue: a result once there stays
       for ever; when no worker is about to record an end, each counter is the
       number of tasks that ended in its way and every submitted task is counted
       or open; and an open task is either waiting or running, once.
    2. `tasks_conserved_mixed` (anti-vacuity) — a run in which one task is
       rendered, one cancelled and one left waiting.
-/

namespace ReadAhead

variable {α : Type}

/-! ## What the counters count -/

def Task.completed (t : Task α) : Bool :=
  match t.result with
  | some (.ok _) => true
  | _ => false

def Task.failed (t : Task α) : Bool :=
  match t.result with
  | some (.error (.failed _)) => true
  | some (.error (.crashed _)) => true
  | _ => false

def Task.cancelled (t : Task α) : Bool :=
  match t.result with
  | some (.error .cancelled) => true
  | _ => false

namespace Queue

theorem booked_eq (t : Task α) : t.booked .completed = t.completed ∧
    t.booked .failed = t.failed ∧ t.booked .cancelled = t.cancelled := by
  unfold Task.booked Task.completed Task.failed Task.cancelled
  cases t.result with
  | none => exact ⟨rfl, rfl, rfl⟩
  | some r =>
    cases r with
    | ok a => exact ⟨rfl, rfl, rfl⟩
    | error fault => cases fault <;> exact ⟨rfl, rfl, rfl⟩

/-- A counter lags behind the table by what workers are about to record. -/
theorem Accounted.counter_eq {q : Queue α} (h : q.Accounted [])
    (recorded : ∀ id ending, .recording id ending ∉ q.workers) (e : Ending) :
    q.counter e = q.tasks.countP (Task.booked e) := by
  have none_owed : (Worker.busy q.workers).countP (·.owes e) = 0 := by
    rw [List.countP_eq_zero]
    intro w hw
    cases w with
    | recording id ending => exact absurd (List.mem_of_mem_filter hw) (recorded id ending)
    | _ => exact Bool.false_ne_true
  rw [← h.balanced e, none_owed, Nat.add_zero]

theorem Accounted.size_eq {q : Queue α} (h : q.Accounted [])
    (recorded : ∀ id ending, .recording id ending ∉ q.workers) :
    q.tasks.size = q.completed + q.failed + q.cancelled + q.tasks.countP (·.result.isNone) := by
  have completed : q.completed = _ := h.counter_eq recorded .completed
  have failed : q.failed = _ := h.counter_eq recorded .failed
  have cancelled : q.cancelled = _ := h.counter_eq recorded .cancelled
  rw [completed, failed, cancelled]
  exact tasks_size_eq q

/-- **Tasks end once and are conserved.** What has ended stays as it ended;
apart from ends that are about to be recorded, the counters say how many tasks
ended in which way, and all others are open; an open task waits or runs, and is
there once. -/
theorem tasks_conserved (workers : Nat) (paused : Bool) (events : List (QueueEvent α)) :
    let q : Queue α := (start workers paused).run events
    (∀ id r, q.result? id = some r → ∀ more, (q.run more).result? id = some r) ∧
    ((∀ id ending, .recording id ending ∉ q.workers) →
      q.completed = q.tasks.countP Task.completed ∧
      q.failed = q.tasks.countP Task.failed ∧
      q.cancelled = q.tasks.countP Task.cancelled ∧
      q.statistics.submitted = q.completed + q.failed + q.cancelled
        + q.tasks.countP (·.result.isNone)) ∧
    (∀ id t, q.task? id = some t → t.result = none → (q.waiting ++ q.running).count id = 1) := by
  intro q
  have h : q.Accounted [] := run_accounted workers paused events
  refine ⟨?_, ?_, ?_⟩
  · intro id r hr more
    exact (h.later_run more).2.result_kept id r hr
  · intro recorded
    have completed : q.completed = q.tasks.countP (Task.booked .completed) :=
      h.counter_eq recorded .completed
    have failed : q.failed = q.tasks.countP (Task.booked .failed) :=
      h.counter_eq recorded .failed
    have cancelled : q.cancelled = q.tasks.countP (Task.booked .cancelled) :=
      h.counter_eq recorded .cancelled
    refine ⟨?_, ?_, ?_, ?_⟩
    · rw [completed, funext fun t => (booked_eq t).1]
    · rw [failed, funext fun t => (booked_eq t).2.1]
    · rw [cancelled, funext fun t => (booked_eq t).2.2]
    · show q.tasks.size = _
      rw [completed, failed, cancelled]
      exact tasks_size_eq q
  · intro id t ht unended
    have still_open : q.isOpen id = true := by
      unfold isOpen
      rw [ht, Option.any_some, unended]
      rfl
    rw [h.distinct.count, if_pos]
    rcases h.placed id still_open with hw | hr | ht
    · exact List.mem_append_left _ hw
    · exact List.mem_append_right _ hr
    · exact absurd ht List.not_mem_nil

/-- One task is rendered, one is cancelled, one waits. -/
def mixed : List (QueueEvent Nat) :=
  [.submit .visible 0, .submit .thumbnail 0, .look 0, .finish 0 ⟨.value 7, false⟩, .record 0,
    .cancel 2, .submit .nearby 0]

/-- **Not vacuous**: what the counters say after a run of each kind. -/
theorem tasks_conserved_mixed :
    ((start 1 false).run mixed).workers = [.awake] ∧
    ((start 1 false).run mixed).completed
      = ((start 1 false).run mixed).tasks.countP Task.completed ∧
    ((start 1 false).run mixed).completed = 1 ∧ ((start 1 false).run mixed).cancelled = 1 := by
  have workers : ((start 1 false).run mixed).workers = [.awake] := by decide +kernel
  have counted := (tasks_conserved 1 false mixed).2.1 (by
    intro id ending
    rw [workers]
    simp)
  exact ⟨workers, counted.1, by decide +kernel, by decide +kernel⟩

end Queue

end ReadAhead
