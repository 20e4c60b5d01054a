import ReadAhead.Proofs.Queue.Order
import ReadAhead.Proofs.Queue.Table
import ReadAhead.Proofs.Queue.Workers

/-!
  Ledger of the queue — where each task is, and under what it is booked

  `Queue.Accounted` says where the tasks are: a task that has not ended waits or
  runs, and a task that waits was neither flagged nor ended. It also balances the
  books: what the counters show and what workers are about to record is what the
  table of tasks says.

  Between the parts of one step a task can be nowhere: it was taken from those
  that wait and is not abandoned yet, or it is in the table and does not wait yet.
  These tasks are an argument of the invariant, the ones in transit. There are
  none before and after a step.

  What is proved is one lemma for each part of a step, telling what it does to the
  invariant and to the tasks in transit: `Accounted.take` (tickets are taken from
  those that wait), `Accounted.abandon`, `Accounted.give` (a worker gets the task
  that is popped), `Accounted.finish`, `Accounted.record`, `Accounted.enter` (a
  task enters the table), `Accounted.enqueue`. `Proofs/Queue/Runs` puts
  them together.
-/

namespace ReadAhead.Queue

open Worker (busy)

variable {α : Type}

def waiting (q : Queue α) : List TaskNumber := q.pending.toList.map Ticket.id

/-- Where the tasks are, and that they are booked as they ended. -/
structure Accounted (q : Queue α) (transit : List TaskNumber) : Prop where
  ordered : q.pending.Ordered Ticket.before
  distinct : (q.waiting ++ q.running).Nodup
  fresh : ∀ t ∈ q.pending.toList, q.task? t.id = some ⟨t.priority, false, none⟩
  placed : ∀ id, q.isOpen id = true → id ∈ q.waiting ∨ id ∈ q.running ∨ id ∈ transit
  known : ∀ id ∈ q.running, id ≤ q.tasks.size
  held : q.running.Perm ((busy q.workers).filterMap Worker.task?)
  ended : ∀ id e, .recording id e ∈ busy q.workers → q.isOpen id = false
  balanced : ∀ e, q.counter e + (busy q.workers).countP (·.owes e)
    = q.tasks.countP (Task.booked e)

variable {q : Queue α} {transit : List TaskNumber}

theorem waiting_abandon (q : Queue α) (id : TaskNumber) : (q.abandon id).2.waiting = q.waiting := by
  rw [abandon_eq, modifyTask_frame]
  rfl

namespace Accounted

theorem running_not_waiting (h : q.Accounted transit) {id : TaskNumber} (hid : id ∈ q.running) :
    id ∉ q.waiting := by
  intro hw
  exact (List.nodup_append.mp h.distinct).2.2 id hw id hid rfl

theorem waiting_le_size (h : q.Accounted transit) {id : TaskNumber} (hid : id ∈ q.waiting) :
    id ≤ q.tasks.size := by
  obtain ⟨t, ht, rfl⟩ := List.mem_map.mp hid
  exact le_size (h.fresh t ht)

theorem placed_of_isOpen (h : q.Accounted []) {id : TaskNumber} (still : q.isOpen id = true) :
    id ∈ q.waiting ∨ id ∈ q.running := by
  rcases h.placed id still with waits | runs | transit
  · exact .inl waits
  · exact .inr runs
  · exact absurd transit List.not_mem_nil

theorem placed_of_open (h : q.Accounted []) {id : TaskNumber} {t : Task α}
    (ht : q.task? id = some t) (hr : t.result = none) : id ∈ q.waiting ∨ id ∈ q.running := by
  refine h.placed_of_isOpen ?_
  rw [isOpen, ht, Option.any_some, hr]
  rfl

theorem mono (h : q.Accounted transit) {more : List TaskNumber} (sub : transit ⊆ more) :
    q.Accounted more :=
  { h with placed := fun id hid => (h.placed id hid).imp_right (Or.imp_right (@sub id)) }

theorem switches (h : q.Accounted transit) (background paused stopped : Bool)
    (published : Stream QueueStatistics) :
    Accounted { q with
      backgroundEnabled := background, paused := paused, stopped := stopped,
      published := published } transit :=
  { h with }

theorem publish (h : q.Accounted transit) : q.publish.Accounted transit :=
  h.switches _ _ _ _

theorem setWorkers (h : q.Accounted transit) {ws : List Worker}
    (same : (busy ws).Perm (busy q.workers)) : Accounted { q with workers := ws } transit :=
  { h with
    held := h.held.trans (same.filterMap _).symm
    ended := fun id e hm => h.ended id e (same.mem_iff.mp hm)
    balanced := fun e => (congrArg (q.counter e + ·) (same.countP_eq _)).trans (h.balanced e) }

theorem wakeAll (h : q.Accounted transit) : q.wakeAll.Accounted transit :=
  h.setWorkers (.of_eq (Worker.busy_woken _))

/-! ## Parts of steps -/

/-- Taking tickets out of those that wait puts their tasks in transit. -/
theorem take (h : q.Accounted transit) {rest : Pending} {removed : List Ticket}
    (ordered : rest.Ordered Ticket.before) (apart : q.pending.toList.Perm (removed ++ rest.toList)) :
    Accounted { q with pending := rest } (removed.map Ticket.id ++ transit) := by
  have moved : q.waiting.Perm (removed.map Ticket.id ++ rest.toList.map Ticket.id) := by
    rw [← List.map_append]
    exact apart.map Ticket.id
  refine { h with ordered := ordered, distinct := ?_, fresh := ?_, placed := ?_ }
  · have all := (moved.append_right q.running).nodup_iff.mp h.distinct
    rw [List.append_assoc] at all
    exact (List.nodup_append.mp all).2.1
  · intro t ht
    exact h.fresh t (apart.mem_iff.mpr (List.mem_append_right _ ht))
  · intro id hid
    rcases h.placed id hid with hw | hr | ht
    · rcases List.mem_append.mp (moved.mem_iff.mp hw) with hw | hw
      · exact .inr (.inr (List.mem_append_left _ hw))
      · exact .inl hw
    · exact .inr (.inl hr)
    · exact .inr (.inr (List.mem_append_right _ ht))

theorem fresh_settle (h : q.Accounted transit) {id : TaskNumber} (hid : id ∉ q.waiting)
    (flag : Bool) (result : TaskAnswer α) :
    ∀ t ∈ q.pending.toList,
      (q.modifyTask id (Task.settle flag result)).task? t.id = some ⟨t.priority, false, none⟩ := by
  intro t ht
  rw [task?_modifyTask, if_neg, h.fresh t ht]
  intro same
  exact hid (same ▸ List.mem_map_of_mem ht)

theorem known_settle (h : q.Accounted transit) (id : TaskNumber) (f : Task α → Task α) :
    ∀ j ∈ q.running, j ≤ (q.modifyTask id f).tasks.size := by
  intro j hj
  rw [size_modifyTask]
  exact h.known j hj

protected theorem abandon {id : TaskNumber} (h : q.Accounted (id :: transit))
    (hid : id ∉ q.waiting) : (q.abandon id).2.Accounted transit := by
  rw [abandon_eq, modifyTask_frame]
  refine { h with
    fresh := h.fresh_settle hid _ _, placed := ?_, known := h.known_settle id _, ended := ?_,
    balanced := ?_ }
  · intro j hj
    have hj : (q.modifyTask id (Task.settle true (.error .cancelled))).isOpen j = true := hj
    rw [isOpen_settle, Bool.and_eq_true, bne_iff_ne] at hj
    rcases h.placed j hj.1 with hw | hr | ht
    · exact .inl hw
    · exact .inr (.inl hr)
    · exact .inr (.inr ((List.mem_cons.mp ht).resolve_left hj.2))
  · intro j e hm
    show (q.modifyTask id (Task.settle true (.error .cancelled))).isOpen j = false
    rw [isOpen_settle, h.ended j e hm, Bool.false_and]
  · -- if the task was open, the table and one counter gain it together
    intro e
    have books := h.balanced e
    have settled := countP_settle q id true (.error .cancelled) e
    cases e with
    | completed => simp_all [counter, Ending.ofResult]
    | failed => simp_all [counter, Ending.ofResult]
    | cancelled =>
      simp_all [counter, Ending.ofResult]
      omega

protected theorem abandonAll {ids : List TaskNumber} (h : q.Accounted (ids ++ transit))
    (hids : ∀ id ∈ ids, id ∉ q.waiting) : (q.abandonAll ids).Accounted transit := by
  induction ids generalizing q with
  | nil => exact h
  | cons id ids ih =>
    refine ih (h.abandon (hids id List.mem_cons_self)) ?_
    intro j hj
    rw [waiting_abandon]
    exact hids j (List.mem_cons_of_mem _ hj)

theorem give (h : q.Accounted transit) {worker : Nat} {a : Worker} {t : Ticket} {rest : Pending}
    (hw : q.workers[worker]? = some a) (idle : a.task? = none)
    (pop : q.pending.pop? = some (t, rest)) :
    ({ q with pending := rest, running := t.id :: q.running }.setWorker worker
      (.executing t.id)).Accounted transit := by
  have apart : q.pending.toList.Perm (t :: rest.toList) := Heap.toList_pop pop
  have moved : q.waiting.Perm (t.id :: rest.toList.map Ticket.id) := apart.map _
  obtain ⟨others, before, after⟩ := Worker.busy_set hw
  have none_a : busy [a] = [] := by simp [busy, idle]
  rw [none_a, List.nil_append] at before
  have after : (busy (q.workers.set worker (.executing t.id))).Perm (.executing t.id :: others) :=
    after _
  refine {
    ordered := Heap.ordered_pop Ticket.before_order h.ordered pop
    distinct := ?_, fresh := ?_, placed := ?_, known := ?_, held := ?_, ended := ?_,
    balanced := ?_ }
  · have all := (moved.append_right q.running).nodup_iff.mp h.distinct
    exact List.perm_middle.nodup_iff.mpr all
  · intro u hu
    exact h.fresh u (apart.mem_iff.mpr (List.mem_cons_of_mem _ hu))
  · intro id hid
    rcases h.placed id hid with hw | hr | ht
    · rcases List.mem_cons.mp (moved.mem_iff.mp hw) with rfl | hw
      · exact .inr (.inl List.mem_cons_self)
      · exact .inl hw
    · exact .inr (.inl (List.mem_cons_of_mem _ hr))
    · exact .inr (.inr ht)
  · intro id hid
    rcases List.mem_cons.mp hid with rfl | hid
    · exact le_size (h.fresh t (apart.mem_iff.mpr List.mem_cons_self))
    · exact h.known id hid
  · have held := h.held.trans (before.filterMap _)
    exact (held.cons t.id).trans (after.filterMap Worker.task?).symm
  · intro id e hm
    rcases List.mem_cons.mp (after.mem_iff.mp hm) with eq | hm
    · cases eq
    · exact h.ended id e (before.mem_iff.mpr hm)
  · intro e
    show q.counter e + (busy (q.workers.set worker (.executing t.id))).countP (·.owes e)
      = q.tasks.countP (Task.booked e)
    rw [after.countP_eq, ← h.balanced e, before.countP_eq, List.countP_cons_of_neg]
    exact Bool.false_ne_true

protected theorem finish (h : q.Accounted transit) {worker : Nat} {id : TaskNumber}
    (hw : q.workers[worker]? = some (.executing id)) (e : WorkEnd α) :
    (q.finish worker e).Accounted transit := by
  obtain ⟨others, before, after⟩ := Worker.busy_set hw
  have before : (busy q.workers).Perm (.executing id :: others) := before
  have hid : id ∈ q.running :=
    (h.held.trans (before.filterMap _)).mem_iff.mpr List.mem_cons_self
  rw [finish_eq e hw, modifyTask_frame]
  let ending := if q.isOpen id then some (Ending.ofResult (q.answer id e)) else none
  have after : (busy (q.workers.set worker (.recording id ending))).Perm
      (.recording id ending :: others) := after _
  refine { h with
    fresh := h.fresh_settle (h.running_not_waiting hid) _ _, placed := ?_,
    known := h.known_settle id _, held := ?_, ended := ?_, balanced := ?_ }
  · intro j hj
    have hj : (q.modifyTask id (Task.settle e.flagsToken (q.answer id e))).isOpen j = true := hj
    rw [isOpen_settle, Bool.and_eq_true] at hj
    exact h.placed j hj.1
  · have held := h.held.trans (before.filterMap _)
    exact held.trans (after.filterMap Worker.task?).symm
  · intro j e' hm
    show (q.modifyTask id (Task.settle e.flagsToken (q.answer id e))).isOpen j = false
    rw [isOpen_settle]
    rcases List.mem_cons.mp (after.mem_iff.mp hm) with eq | hm
    · cases eq
      simp
    · rw [h.ended j e' (before.mem_iff.mpr (List.mem_cons_of_mem _ hm)), Bool.false_and]
  · -- the table gains the task now, and the worker owes it to a counter
    intro e'
    calc q.counter e' + (busy (q.workers.set worker (.recording id ending))).countP (·.owes e')
      _ = q.counter e' + (busy q.workers).countP (·.owes e')
            + if q.isOpen id && Ending.ofResult (q.answer id e) == e' then 1 else 0 := by
        rw [after.countP_eq, before.countP_eq, List.countP_cons, List.countP_cons,
          Worker.owes_recording, Worker.owes_executing, Nat.add_assoc]
        rfl
      _ = (q.modifyTask id (Task.settle e.flagsToken (q.answer id e))).tasks.countP
            (Task.booked e') := by
        rw [h.balanced e', countP_settle]

protected theorem record (h : q.Accounted transit) {worker : Nat} {id : TaskNumber}
    {ending : Option Ending} (hw : q.workers[worker]? = some (.recording id ending)) :
    (q.record worker).Accounted transit := by
  obtain ⟨others, before, after⟩ := Worker.busy_set hw
  have before : (busy q.workers).Perm (.recording id ending :: others) := before
  have after : (busy (q.workers.set worker .awake)).Perm others := after _
  have held : q.running.Perm (id :: others.filterMap Worker.task?) :=
    h.held.trans (before.filterMap _)
  obtain ⟨completed, failed, cancelled, recorded, counts⟩ := record_eq hw
  rw [recorded]
  refine Accounted.publish ?_
  refine { h with
    distinct := h.distinct.sublist (List.erase_sublist.append_left _), placed := ?_,
    known := fun j hj => h.known j (List.mem_of_mem_erase hj), held := ?_, ended := ?_,
    balanced := ?_ }
  · intro j hj
    -- the task whose end is recorded is not open any more, so it may leave those that run
    have other : j ≠ id := by
      intro same
      have done := h.ended id ending (before.mem_iff.mpr List.mem_cons_self)
      rw [← same] at done
      rw [show q.isOpen j = true from hj] at done
      cases done
    rcases h.placed j hj with hw | hr | ht
    · exact .inl hw
    · exact .inr (.inl ((List.mem_erase_of_ne other).mpr hr))
    · exact .inr (.inr ht)
  · have rest := held.erase id
    rw [List.erase_cons_head] at rest
    exact rest.trans (after.filterMap Worker.task?).symm
  · intro j e hm
    exact h.ended j e (before.mem_iff.mpr (List.mem_cons_of_mem _ (after.mem_iff.mp hm)))
  · intro e
    show counter { q with completed := completed, failed := failed, cancelled := cancelled } e
      + (busy (q.workers.set worker .awake)).countP (·.owes e) = q.tasks.countP (Task.booked e)
    rw [counts, after.countP_eq, ← h.balanced e, before.countP_eq, List.countP_cons]
    show _ = _ + (_ + if ending == some e then 1 else 0)
    omega

/-- A task that enters the table is in transit. -/
theorem enter (h : q.Accounted []) (priority : Priority) :
    Accounted { q with tasks := q.tasks.push ⟨priority, false, none⟩ } [q.tasks.size + 1] := by
  refine { h with fresh := ?_, placed := ?_, known := ?_, ended := ?_, balanced := ?_ }
  · intro t ht
    have old := h.fresh t ht
    rw [task?_push, if_neg (Nat.ne_of_lt (Nat.lt_succ_of_le (le_size old))), old]
  · intro id hid
    unfold isOpen at hid
    rw [task?_push] at hid
    split at hid
    · next new => exact .inr (.inr (List.mem_singleton.mpr new))
    · rcases h.placed id hid with hw | hr | ht
      · exact .inl hw
      · exact .inr (.inl hr)
      · exact absurd ht List.not_mem_nil
  · intro id hid
    rw [Array.size_push]
    exact Nat.le_succ_of_le (h.known id hid)
  · intro id e hm
    have hid : id ∈ q.running := by
      rw [h.held.mem_iff]
      exact List.mem_filterMap.mpr ⟨_, hm, rfl⟩
    unfold isOpen
    rw [task?_push, if_neg (Nat.ne_of_lt (Nat.lt_succ_of_le (h.known id hid)))]
    exact h.ended id e hm
  · intro e
    rw [Array.countP_push]
    exact h.balanced e

/-- A task in transit that is neither flagged nor ended can wait. -/
theorem enqueue {id : TaskNumber} {priority : Priority} (h : q.Accounted [id])
    (fresh : q.task? id = some ⟨priority, false, none⟩) (apart : id ∉ q.waiting ++ q.running) :
    Accounted { q with pending := q.pending.push ⟨id, priority⟩ } [] := by
  have pushed := q.pending.toList_push ⟨id, priority⟩
  have moved := pushed.map Ticket.id
  refine { h with
    ordered := Heap.ordered_push Ticket.before_order h.ordered _, distinct := ?_, fresh := ?_,
    placed := ?_ }
  · refine (moved.append_right q.running).nodup_iff.mpr ?_
    exact List.nodup_cons.mpr ⟨apart, h.distinct⟩
  · intro t ht
    rcases List.mem_cons.mp (pushed.mem_iff.mp ht) with rfl | ht
    · exact fresh
    · exact h.fresh t ht
  · intro j hj
    rcases h.placed j hj with hw | hr | ht
    · exact .inl (moved.mem_iff.mpr (List.mem_cons_of_mem _ hw))
    · exact .inr (.inl hr)
    · refine .inl (moved.mem_iff.mpr ?_)
      rw [List.mem_singleton.mp ht]
      exact List.mem_cons_self

end Accounted

end ReadAhead.Queue
