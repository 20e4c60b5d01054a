import ReadAhead.Proofs.Queue.Cancel

/-!
  Late ends — work that ends after its task was cancelled

  A task that is cancelled while it runs has ended, but its work goes on and ends
  some time later. What it comes to then is not kept, and its worker has nothing to
  record but that it is free again.

  What is proved:
    1. `Accounted.task_apply` — all that a step can do to a task in the table.
    2. `run_known`, `run_marked` — in every reachable state, what runs is in the
       table, and what ended as cancelled is flagged.
    3. `finish_discarded` — the end of work that comes after its task was cancelled
       changes nothing but what the worker is about to do.
    4. `Accounted.discarded_uncounted` — and whenever the worker comes to record it,
       nothing is counted.
-/

namespace ReadAhead

variable {α : Type}

theorem Task.settle_of_ended {t : Task α} {r : TaskAnswer α} (ended : t.result = some r)
    (flagged : t.flagged = true) (flag : Bool) (result : TaskAnswer α) :
    t.settle flag result = t := by
  obtain ⟨priority, _, _⟩ := t
  cases ended
  cases flagged
  rfl

/-- Work comes to a cancellation only by the flag of its token. -/
theorem WorkEnd.flagged_of_cancelled {e : WorkEnd α} {flagged : Bool}
    (cancelled : e.toTaskAnswer flagged = .error .cancelled) : flagged = true := by
  unfold toTaskAnswer at cancelled
  cases flagged with
  | true => rfl
  | false => cases hr : e.result <;> simp [hr] at cancelled

namespace Queue

variable {q : Queue α}

/-! ## What a step does to a task -/

/-- **A step leaves a task as it is, cancels it, or ends it as its work comes to.**
If it was not there before, it was submitted. -/
theorem Accounted.task_apply (h : q.Accounted []) (event : QueueEvent α) {id : TaskNumber}
    {t' : Task α} (ht' : (q.apply event).task? id = some t') :
    (∃ t, q.task? id = some t ∧
      (t' = t ∨ t' = t.settle true (.error .cancelled) ∨
        ∃ worker workEnd, event = .finish worker workEnd ∧
          q.workers[worker]? = some (.executing id) ∧
          t' = t.settle workEnd.flagsToken (q.answer id workEnd))) ∨
    (∃ priority choice, event = .submit priority choice ∧ id = q.tasks.size + 1 ∧
      (t' = ⟨priority, false, none⟩ ∨
        t' = Task.settle true (.error .cancelled) ⟨priority, false, none⟩)) := by
  have untouched {q' : Queue α} (tasks : q'.tasks = q.tasks) (ht' : q'.task? id = some t') :
      q.task? id = some t' := by
    rw [task?, tasks] at ht'
    exact ht'
  -- cancelling, switching off and stopping settle some tasks and leave the others
  have cancelled {c : Prop} [Decidable c]
      (ht' : (if c then (q.task? id).map (Task.settle true (.error .cancelled)) else q.task? id)
        = some t') : ∃ t, q.task? id = some t ∧ (t' = t ∨ t' = t.settle true (.error .cancelled)) := by
    split at ht'
    · obtain ⟨t, ht, rfl⟩ := Option.map_eq_some_iff.mp ht'
      exact ⟨t, ht, .inr rfl⟩
    · exact ⟨t', ht', .inl rfl⟩
  cases event with
  | submit priority choice =>
    rw [apply, task?_submit] at ht'
    split at ht'
    · next new =>
      rw [Option.some.injEq] at ht'
      refine .inr ⟨priority, choice, rfl, new, ?_⟩
      split at ht'
      · exact .inr ht'.symm
      · exact .inl ht'.symm
    · exact .inl ⟨t', ht', .inl rfl⟩
  | look worker =>
    have same : (q.look worker).tasks = q.tasks := by
      rcases h.look_cases worker with same | ⟨w, _, _, eq⟩ | ⟨t, rest, _, _, _, _, eq⟩
      · rw [same]
      · rw [eq]
        rfl
      · rw [eq]
        rfl
    exact .inl ⟨t', untouched same ht', .inl rfl⟩
  | finish worker workEnd =>
    rcases finish_cases q worker workEnd with ⟨j, hw⟩ | same
    · rw [apply, task?_finish hw] at ht'
      split at ht'
      · next here =>
        subst here
        obtain ⟨t, ht, rfl⟩ := Option.map_eq_some_iff.mp ht'
        exact .inl ⟨t, ht, .inr (.inr ⟨worker, workEnd, rfl, hw, rfl⟩)⟩
      · exact .inl ⟨t', ht', .inl rfl⟩
    · exact .inl ⟨t', untouched (congrArg tasks same) ht', .inl rfl⟩
  | record worker =>
    rcases record_cases q worker with ⟨j, ending, hw⟩ | same
    · obtain ⟨_, _, _, recorded, _⟩ := record_eq hw
      have same : (q.record worker).tasks = q.tasks := by
        rw [recorded]
        rfl
      exact .inl ⟨t', untouched same ht', .inl rfl⟩
    · exact .inl ⟨t', untouched (congrArg tasks same) ht', .inl rfl⟩
  | cancel j =>
    rw [apply, task?_cancel] at ht'
    obtain ⟨t, ht, change⟩ := cancelled ht'
    exact .inl ⟨t, ht, change.imp_right .inl⟩
  | setBackground enabled =>
    cases enabled with
    | true =>
      have same : (q.setBackground true).tasks = q.tasks := by
        unfold setBackground
        split <;> rfl
      exact .inl ⟨t', untouched same ht', .inl rfl⟩
    | false =>
      cases on : q.backgroundEnabled with
      | false => exact .inl ⟨t', untouched (congrArg tasks (setBackground_same on)) ht', .inl rfl⟩
      | true =>
        rw [apply, h.task?_setBackground on] at ht'
        obtain ⟨t, ht, change⟩ := cancelled ht'
        exact .inl ⟨t, ht, change.imp_right .inl⟩
  | pause =>
    have same : q.pause.tasks = q.tasks := by
      unfold pause
      split <;> rfl
    exact .inl ⟨t', untouched same ht', .inl rfl⟩
  | resume =>
    have same : q.resume.tasks = q.tasks := by
      unfold resume
      split <;> rfl
    exact .inl ⟨t', untouched same ht', .inl rfl⟩
  | stop =>
    cases on : q.stopped with
    | true => exact .inl ⟨t', untouched (congrArg tasks (stop_again on)) ht', .inl rfl⟩
    | false =>
      rw [apply, h.task?_stop on] at ht'
      obtain ⟨t, ht, change⟩ := cancelled ht'
      exact .inl ⟨t, ht, change.imp_right .inl⟩

/-! ## What runs is in the table -/

theorem Accounted.running_of_executing (h : q.Accounted []) {worker : Nat} {id : TaskNumber}
    (hw : q.workers[worker]? = some (.executing id)) : id ∈ q.running := by
  have busy : .executing id ∈ Worker.busy q.workers :=
    List.mem_filter.mpr ⟨List.mem_of_getElem? hw, rfl⟩
  exact h.held.mem_iff.mpr (List.mem_filterMap.mpr ⟨_, busy, rfl⟩)

/-- What runs is in the table. -/
def Known (q : Queue α) : Prop := ∀ id ∈ q.running, ∃ t, q.task? id = some t

theorem Accounted.known_apply (h : q.Accounted []) (known : q.Known) (event : QueueEvent α) :
    (q.apply event).Known := by
  intro id runs
  have before : ∃ t, q.task? id = some t := by
    rcases h.running_apply event runs with runs | waits
    · exact known id runs
    · obtain ⟨t, ht, rfl⟩ := List.mem_map.mp waits
      exact ⟨_, h.fresh t ht⟩
  obtain ⟨t, ht⟩ := before
  obtain ⟨t', ht', _⟩ := (h.later_apply event).ages id t ht
  exact ⟨t', ht'⟩

theorem start_known (workers : Nat) (paused : Bool) : (start workers paused : Queue α).Known :=
  fun _ hid => absurd hid List.not_mem_nil

theorem run_known (workers : Nat) (paused : Bool) (events : List (QueueEvent α)) :
    ((start workers paused).run events).Known :=
  ((start_accounted workers paused).run_induction (fun _ h => h.known_apply)
    (start_known workers paused) events).2

/-! ## What ended as cancelled is flagged -/

/-- Tasks that ended as cancelled are flagged. -/
def Marked (q : Queue α) : Prop :=
  ∀ id t, q.task? id = some t → t.result = some (.error .cancelled) → t.flagged = true

/-- A task that is settled as cancelled has to be flagged with it. -/
theorem marked_settle {t : Task α} {flag : Bool} {result : TaskAnswer α}
    (marked : t.result = some (.error .cancelled) → t.flagged = true)
    (flags : result = .error .cancelled → (t.flagged || flag) = true)
    (cancelled : (t.settle flag result).result = some (.error .cancelled)) :
    (t.settle flag result).flagged = true := by
  show (t.flagged || flag) = true
  cases hr : t.result with
  | none =>
    rw [Task.settle, hr, Option.getD_none, Option.some.injEq] at cancelled
    exact flags cancelled
  | some r =>
    rw [Task.settle, hr, Option.getD_some] at cancelled
    rw [marked (hr.trans cancelled), Bool.true_or]

/-- **No step cancels a task without flagging it.** -/
theorem Accounted.marked_apply (h : q.Accounted []) (marked : q.Marked) (event : QueueEvent α) :
    (q.apply event).Marked := by
  intro id t' ht'
  rcases h.task_apply event ht' with
    ⟨t, ht, rfl | rfl | ⟨worker, workEnd, _, _, rfl⟩⟩ | ⟨priority, choice, _, _, rfl | rfl⟩
  · exact marked id _ ht
  · exact marked_settle (marked id t ht) fun _ => Bool.or_true _
  · refine marked_settle (marked id t ht) ?_
    intro cancelled
    have flagged := WorkEnd.flagged_of_cancelled cancelled
    rw [isFlagged, ht, Option.any_some] at flagged
    exact flagged
  · intro cancelled
    cases cancelled
  · exact fun _ => rfl

theorem run_marked (workers : Nat) (paused : Bool) (events : List (QueueEvent α)) :
    ((start workers paused).run events).Marked := by
  have empty : (start workers paused : Queue α).Marked := by
    intro id t ht
    simp [task?, start] at ht
  exact ((start_accounted workers paused).run_induction (fun _ h => h.marked_apply) empty events).2

/-! ## Work that ends late -/

theorem isOpen_of_result {id : TaskNumber} {r : TaskAnswer α} (ended : q.result? id = some r) :
    q.isOpen id = false := by
  obtain ⟨t, ht, hr⟩ := Option.bind_eq_some_iff.mp ended
  rw [isOpen, ht, Option.any_some, hr]
  rfl

/-- **The end of work is discarded if its task was cancelled before.** -/
theorem finish_discarded (marked : q.Marked) {worker : Nat} {id : TaskNumber}
    (hw : q.workers[worker]? = some (.executing id))
    (cancelled : q.result? id = some (.error .cancelled)) (e : WorkEnd α) :
    q.finish worker e = q.setWorker worker (.recording id none) := by
  have same : q.modifyTask id (Task.settle e.flagsToken (q.answer id e)) = q := by
    rw [modifyTask_congr (g := fun t => t), modifyTask_id]
    intro t ht
    rw [result?, ht, Option.bind_some] at cancelled
    exact Task.settle_of_ended cancelled (marked id t ht cancelled) _ _
  rw [finish_eq e hw, isOpen_of_result cancelled, same, if_neg Bool.false_ne_true]

theorem record_uncounted {worker : Nat} {id : TaskNumber}
    (hw : q.workers[worker]? = some (.recording id none)) (e : Ending) :
    (q.record worker).counter e = q.counter e := by
  obtain ⟨completed, failed, cancelled, recorded, counts⟩ := record_eq hw
  have same := counts e
  rw [recorded, publish]
  cases e <;> exact same

theorem Accounted.discarded_uncounted (h : q.Accounted []) (marked : q.Marked) {worker : Nat}
    {id : TaskNumber} (hw : q.workers[worker]? = some (.executing id))
    (cancelled : q.result? id = some (.error .cancelled)) (workEnd : WorkEnd α)
    {events : List (QueueEvent α)} (waits : .record worker ∉ events) (e : Ending) :
    (((q.finish worker workEnd).run events).record worker).counter e
      = ((q.finish worker workEnd).run events).counter e := by
  have inside : worker < q.workers.length := (List.getElem?_eq_some_iff.mp hw).1
  have about : (q.finish worker workEnd).workers[worker]? = some (.recording id none) := by
    rw [finish_discarded marked hw cancelled]
    exact List.getElem?_set_self inside
  have still := (finish_accounted h worker workEnd).holding_run about rfl nofun
    fun _ _ _ => waits
  exact record_uncounted still e

end Queue

end ReadAhead
