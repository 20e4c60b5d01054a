import ReadAhead.Queue.Event

/-!
  Table of tasks — what a step does to the tasks ever submitted

  The table of tasks grows at its end and is changed one task at a time. A task
  that ends does so through `Task.settle`, which keeps the result of a task that
  had one.

  What is proved:
    1. `task?_modifyTask`, `countP_modifyTask` — what is found under a number,
       and how many tasks pass a test, after one task was changed.
    2. `settle_eq` — flagging and resolving a task, in whatever form a step does
       it, is one call of `Task.settle`, and tells whether the task was open.
       `abandon_eq`, `finish_eq` are the two steps that do it, and `task?_finish`,
       `finish_frame` tell what the second one leaves.
    3. `record_eq` — recording the end of a task counts it under one counter.
    4. `abandonAll_frame`, `task?_abandonAll` — abandoning several tasks settles
       them, and touches nothing but the table and one counter.
    5. `tasks_size_eq` — each task is open, or booked under one counter.
-/

namespace ReadAhead

variable {α : Type}

/-- A task after it was given a result, and flagged or not. -/
def Task.settle (flag : Bool) (result : TaskAnswer α) (t : Task α) : Task α :=
  { t with flagged := t.flagged || flag, result := some (t.result.getD result) }

/-- A task as it can be some steps later: of the same priority, still flagged if
it was, and ended as it had. -/
structure Task.Ages (t t' : Task α) : Prop where
  priority : t'.priority = t.priority
  flagged : t.flagged = true → t'.flagged = true
  result : ∀ r, t.result = some r → t'.result = some r

theorem Task.Ages.refl (t : Task α) : t.Ages t := ⟨rfl, id, fun _ => id⟩

theorem Task.Ages.trans {t₁ t₂ t₃ : Task α} (h : t₁.Ages t₂) (h' : t₂.Ages t₃) : t₁.Ages t₃ where
  priority := h'.priority.trans h.priority
  flagged := h'.flagged ∘ h.flagged
  result r := h'.result r ∘ h.result r

theorem Task.settle_ages (t : Task α) (flag : Bool) (result : TaskAnswer α) :
    t.Ages (t.settle flag result) where
  priority := rfl
  flagged h := by rw [settle, h, Bool.true_or]
  result r h := by rw [settle, h, Option.getD_some]

/-- Whether a task ended in a way that is booked under a counter. -/
def Task.booked (e : Ending) (t : Task α) : Bool := t.result.any (Ending.ofResult · == e)

namespace Queue

/-- Whether there is a task with a number, and it has not ended. -/
def isOpen (q : Queue α) (id : TaskNumber) : Bool := (q.task? id).any (·.result.isNone)

/-! ## Looking up a task -/

theorem task?_modifyTask (q : Queue α) (id j : Nat) (f : Task α → Task α) :
    (q.modifyTask id f).task? j = if j = id then (q.task? j).map f else q.task? j := by
  unfold modifyTask task?
  by_cases hid : id = 0
  · rw [if_pos hid]
    by_cases hj : j = id
    · rw [if_pos hj, if_pos (hj.trans hid)]
      rfl
    · rw [if_neg hj]
  · rw [if_neg hid]
    by_cases hj : j = 0
    · rw [if_pos hj, if_pos hj, if_neg (by omega)]
    · rw [if_neg hj, if_neg hj, Array.getElem?_modify]
      by_cases h : j = id
      · rw [if_pos (by omega), if_pos h]
      · rw [if_neg (by omega), if_neg h]

theorem modifyTask_frame (q : Queue α) (id : TaskNumber) (f : Task α → Task α) :
    q.modifyTask id f = { q with tasks := (q.modifyTask id f).tasks } := by
  unfold modifyTask
  split <;> rfl

theorem size_modifyTask (q : Queue α) (id : TaskNumber) (f : Task α → Task α) :
    (q.modifyTask id f).tasks.size = q.tasks.size := by
  unfold modifyTask
  split
  · rfl
  · exact Array.size_modify

theorem task?_eq_none (q : Queue α) (id : Nat) :
    q.task? id = none ↔ id = 0 ∨ q.tasks.size < id := by
  unfold task?
  by_cases h : id = 0
  · simp [h]
  · rw [if_neg h, Array.getElem?_eq_none_iff]
    omega

theorem le_size {q : Queue α} {id : TaskNumber} {t : Task α} (h : q.task? id = some t) :
    id ≤ q.tasks.size := by
  have known : ¬ q.task? id = none := by simp [h]
  rw [task?_eq_none] at known
  exact Nat.le_of_not_lt fun late => known (.inr late)

theorem modifyTask_congr {q : Queue α} {id : TaskNumber} {f g : Task α → Task α}
    (h : ∀ t, q.task? id = some t → f t = g t) : q.modifyTask id f = q.modifyTask id g := by
  unfold modifyTask
  split
  · rfl
  · next hid =>
    congr 1
    apply Array.ext_getElem?
    intro i
    rw [Array.getElem?_modify, Array.getElem?_modify]
    split
    · next hi =>
      subst hi
      cases ht : q.tasks[id - 1]? with
      | none => rfl
      | some t =>
        rw [Option.map_some, Option.map_some, h t]
        rw [task?, if_neg hid]
        exact ht
    · rfl

theorem modifyTask_id (q : Queue α) (id : TaskNumber) : q.modifyTask id (fun t => t) = q := by
  unfold modifyTask
  split
  · rfl
  · congr 1
    apply Array.ext_getElem?
    intro i
    rw [Array.getElem?_modify]
    split <;> simp

theorem modifyTask_none {q : Queue α} {id : TaskNumber} (h : q.task? id = none)
    (f : Task α → Task α) : q.modifyTask id f = q := by
  rw [modifyTask_congr (g := fun t => t) (by simp [h]), modifyTask_id]

theorem modifyTask_modifyTask (q : Queue α) (id : TaskNumber) (f g : Task α → Task α) :
    (q.modifyTask id f).modifyTask id g = q.modifyTask id fun t => g (f t) := by
  unfold modifyTask
  split
  · rfl
  · congr 1
    apply Array.ext_getElem?
    intro i
    simp only [Array.getElem?_modify]
    split
    · rw [Option.map_map]; rfl
    · rfl

theorem countP_modify {β : Type} {l : List β} {i : Nat} {b : β} (h : l[i]? = some b)
    (f : β → β) (p : β → Bool) :
    (l.modify i f).countP p + (if p b then 1 else 0)
      = l.countP p + if p (f b) then 1 else 0 := by
  induction l generalizing i with
  | nil => simp at h
  | cons a l ih =>
    cases i with
    | zero =>
      simp only [List.getElem?_cons_zero, Option.some.injEq] at h
      subst h
      simp only [List.modify_zero_cons, List.countP_cons]
      omega
    | succ i =>
      simp only [List.getElem?_cons_succ] at h
      have rest := ih h
      simp only [List.modify_succ_cons, List.countP_cons]
      omega

theorem countP_modifyTask {q : Queue α} {id : TaskNumber} {t : Task α} (h : q.task? id = some t)
    (f : Task α → Task α) (p : Task α → Bool) :
    (q.modifyTask id f).tasks.countP p + (if p t then 1 else 0)
      = q.tasks.countP p + if p (f t) then 1 else 0 := by
  unfold task? at h
  unfold modifyTask
  split at h
  · cases h
  · next hid =>
    rw [if_neg hid]
    simp only [← Array.countP_toList, Array.toList_modify]
    exact countP_modify (by simpa using h) f p

/-! ## Ending a task -/

/-- Flagging and resolving is settling, and tells whether the task was open. -/
theorem settle_eq (q : Queue α) (id : TaskNumber) (flag : Bool) (result : TaskAnswer α) :
    (if flag then q.flag id else q).resolve id result
      = (q.isOpen id, q.modifyTask id (Task.settle flag result)) := by
  have flagged : (if flag then q.flag id else q)
      = q.modifyTask id fun t => { t with flagged := t.flagged || flag } := by
    cases flag with
    | false => simp [modifyTask_id]
    | true => simp [Queue.flag]
  -- resolving changes an open task only, and settling gives no other one a new result
  rw [flagged]
  unfold resolve isOpen
  rw [task?_modifyTask, if_pos rfl]
  cases ht : q.task? id with
  | none => simp [modifyTask_none ht]
  | some t =>
    cases hr : t.result with
    | none =>
      simp only [Option.map_some, hr, Option.isSome_none, Bool.false_eq_true, if_false,
        modifyTask_modifyTask, Option.any_some, Option.isNone_none, Prod.mk.injEq, true_and]
      apply modifyTask_congr
      intro t' ht'
      rw [ht, Option.some.injEq] at ht'
      subst ht'
      simp [Task.settle, hr]
    | some r =>
      simp only [Option.map_some, hr, Option.isSome_some, if_true, Option.any_some,
        Option.isNone_some, Prod.mk.injEq, true_and]
      apply modifyTask_congr
      intro t' ht'
      rw [ht, Option.some.injEq] at ht'
      subst ht'
      simp [Task.settle, hr]

theorem abandon_eq (q : Queue α) (id : TaskNumber) :
    q.abandon id = (q.isOpen id,
      { q.modifyTask id (Task.settle true (.error .cancelled)) with
        cancelled := q.cancelled + if q.isOpen id then 1 else 0 }) := by
  have settled := settle_eq q id true (.error .cancelled)
  rw [if_pos rfl] at settled
  unfold abandon
  rw [settled, modifyTask_frame]
  cases q.isOpen id <;> rfl

def answer (q : Queue α) (id : TaskNumber) (e : WorkEnd α) : TaskAnswer α :=
  e.toTaskAnswer (q.isFlagged id || e.flagsToken)

theorem finish_eq {q : Queue α} {worker : Nat} {id : TaskNumber} (e : WorkEnd α)
    (h : q.workers[worker]? = some (.executing id)) :
    q.finish worker e = (q.modifyTask id (Task.settle e.flagsToken (q.answer id e))).setWorker
      worker (.recording id (if q.isOpen id then some (.ofResult (q.answer id e)) else none)) := by
  unfold finish
  simp only [h, settle_eq]
  cases ht : q.task? id with
  | none => simp [isOpen, ht, modifyTask_none ht]
  | some t =>
    have flagged : (if e.flagsToken then q.flag id else q).isFlagged id
        = (q.isFlagged id || e.flagsToken) := by
      cases e.flagsToken with
      | false => simp
      | true => simp [isFlagged, Queue.flag, task?_modifyTask, ht]
    rw [flagged]
    rfl

theorem finish_cases (q : Queue α) (worker : Nat) (e : WorkEnd α) :
    (∃ id, q.workers[worker]? = some (.executing id)) ∨ q.finish worker e = q := by
  unfold finish
  split
  · next id hw => exact .inl ⟨id, hw⟩
  · exact .inr rfl

theorem task?_finish {q : Queue α} {worker : Nat} {id : TaskNumber}
    (hw : q.workers[worker]? = some (.executing id)) (e : WorkEnd α) (j : TaskNumber) :
    (q.finish worker e).task? j = if j = id
      then (q.task? j).map (Task.settle e.flagsToken (q.answer id e)) else q.task? j := by
  rw [finish_eq e hw]
  exact task?_modifyTask q id j _

/-- The end of work touches nothing but the table and the worker, which is about to
record the end if the task was open. -/
theorem finish_frame {q : Queue α} {worker : Nat} {id : TaskNumber}
    (hw : q.workers[worker]? = some (.executing id)) (e : WorkEnd α) :
    ∃ tasks ending, tasks.size = q.tasks.size ∧ ending.isSome = q.isOpen id ∧
      q.finish worker e = { q with
        tasks := tasks, workers := q.workers.set worker (.recording id ending) } := by
  refine ⟨(q.modifyTask id (Task.settle e.flagsToken (q.answer id e))).tasks,
    if q.isOpen id then some (.ofResult (q.answer id e)) else none, size_modifyTask q id _, ?_, ?_⟩
  · cases q.isOpen id <;> rfl
  · rw [finish_eq e hw, modifyTask_frame]
    rfl

def counter (q : Queue α) : Ending → Nat
  | .completed => q.completed
  | .failed => q.failed
  | .cancelled => q.cancelled

/-- Recording changes no counter but the one under which the task is booked. -/
theorem record_eq {q : Queue α} {worker : Nat} {id : TaskNumber} {ending : Option Ending}
    (h : q.workers[worker]? = some (.recording id ending)) : ∃ completed failed cancelled,
      q.record worker = Queue.publish { q with
        running := q.running.erase id, workers := q.workers.set worker .awake,
        completed := completed, failed := failed, cancelled := cancelled } ∧
      ∀ e, counter { q with completed := completed, failed := failed, cancelled := cancelled } e
        = q.counter e + if ending == some e then 1 else 0 := by
  unfold record
  simp only [h]
  cases ending with
  | none => exact ⟨_, _, _, rfl, fun e => by cases e <;> rfl⟩
  | some e => cases e <;> exact ⟨_, _, _, rfl, fun e => by cases e <;> rfl⟩

theorem record_cases (q : Queue α) (worker : Nat) :
    (∃ id ending, q.workers[worker]? = some (.recording id ending)) ∨ q.record worker = q := by
  unfold record
  split
  · next id ending hw => exact .inl ⟨id, ending, hw⟩
  · exact .inr rfl

theorem abandonAll_frame (q : Queue α) (ids : List TaskNumber) :
    q.abandonAll ids = { q with
      tasks := (q.abandonAll ids).tasks, cancelled := (q.abandonAll ids).cancelled } := by
  unfold abandonAll
  induction ids generalizing q with
  | nil => rfl
  | cons id ids ih =>
    rw [List.foldl_cons, ih, abandon_eq, modifyTask_frame]

theorem task?_abandonAll (q : Queue α) (ids : List TaskNumber) (j : TaskNumber) :
    (q.abandonAll ids).task? j = if j ∈ ids
      then (q.task? j).map (Task.settle true (.error .cancelled)) else q.task? j := by
  unfold abandonAll
  induction ids generalizing q with
  | nil => rfl
  | cons id ids ih =>
    have one : (q.abandon id).2.task? j
        = if j = id then (q.task? j).map (Task.settle true (.error .cancelled)) else q.task? j := by
      rw [abandon_eq]
      exact task?_modifyTask q id j _
    rw [List.foldl_cons, ih, one]
    by_cases same : j = id
    · subst same
      -- a task that is settled twice keeps the first result, which is the same
      have twice (t : Task α) : (t.settle true (.error .cancelled)).settle true (.error .cancelled)
          = t.settle true (.error .cancelled) := by
        simp [Task.settle]
      cases q.task? j <;> simp [twice]
    · simp [same]

theorem size_abandonAll (q : Queue α) (ids : List TaskNumber) :
    (q.abandonAll ids).tasks.size = q.tasks.size := by
  unfold abandonAll
  induction ids generalizing q with
  | nil => rfl
  | cons id ids ih =>
    rw [List.foldl_cons, ih, abandon_eq]
    exact size_modifyTask q id _

theorem isOpen_settle (q : Queue α) (id j : TaskNumber) (flag : Bool) (result : TaskAnswer α) :
    (q.modifyTask id (Task.settle flag result)).isOpen j = (q.isOpen j && j != id) := by
  unfold isOpen
  rw [task?_modifyTask]
  by_cases h : j = id
  · subst h
    cases q.task? j <;> simp [Task.settle]
  · simp [h]

theorem countP_settle (q : Queue α) (id : TaskNumber) (flag : Bool) (result : TaskAnswer α)
    (e : Ending) :
    (q.modifyTask id (Task.settle flag result)).tasks.countP (Task.booked e)
      = q.tasks.countP (Task.booked e)
        + if q.isOpen id && Ending.ofResult result == e then 1 else 0 := by
  cases ht : q.task? id with
  | none => simp [modifyTask_none ht, isOpen, ht]
  | some t =>
    have counted := countP_modifyTask ht (Task.settle flag result) (Task.booked e)
    cases hr : t.result <;> simp_all [isOpen, Task.booked, Task.settle]

theorem result?_settle {q : Queue α} {id j : TaskNumber} {flag : Bool} {result r : TaskAnswer α}
    (h : q.result? j = some r) :
    (q.modifyTask id (Task.settle flag result)).result? j = some r := by
  unfold result? at *
  rw [task?_modifyTask]
  split
  · obtain ⟨t, ht, hr⟩ := Option.bind_eq_some_iff.mp h
    simp [ht, Task.settle, hr]
  · exact h

/-! ## Adding a task -/

theorem task?_push (q : Queue α) (t : Task α) (j : Nat) :
    { q with tasks := q.tasks.push t }.task? j
      = if j = q.tasks.size + 1 then some t else q.task? j := by
  unfold task?
  by_cases hj : j = 0
  · rw [if_pos hj, if_pos hj, if_neg (by omega)]
  · rw [if_neg hj, if_neg hj, Array.getElem?_push]
    by_cases h : j = q.tasks.size + 1
    · rw [if_pos (by omega), if_pos h]
    · rw [if_neg (by omega), if_neg h]

/-! ## Counting tasks -/

theorem tasks_size_eq (q : Queue α) :
    q.tasks.size = q.tasks.countP (Task.booked .completed) + q.tasks.countP (Task.booked .failed)
      + q.tasks.countP (Task.booked .cancelled) + q.tasks.countP (·.result.isNone) := by
  simp only [← Array.countP_toList, ← Array.length_toList]
  induction q.tasks.toList with
  | nil => rfl
  | cons t ts ih =>
    simp only [List.length_cons, List.countP_cons, ih]
    cases hr : t.result with
    | none => simp [Task.booked, hr]; omega
    | some r => cases he : Ending.ofResult r <;> simp [Task.booked, hr, he] <;> omega

end Queue

end ReadAhead
