import ReadAhead.Proofs.Queue.Ledger

/-!
  Runs of the queue — the ledger after any steps, in any order

  What is proved:
    1. `Accounted.look_awake`, `Accounted.look_cases` — what a worker does that
       looks at the queue. The task that it gets is the first of those that wait:
       none of them was flagged, so no round of `Queue.dispatch` is spent on a
       flagged one.
    2. `apply_accounted`, `run_accounted` — every step keeps the ledger, so every
       run does.
    3. `Accounted.later_apply`, `Accounted.later_run` — no step takes back a result
       or a flag or changes a priority, and none lets a task wait that did not wait
       before, except for the one that it submits.
-/

namespace ReadAhead.Queue

variable {α : Type} {q : Queue α}

def given (q : Queue α) (worker : Nat) (t : Ticket) (rest : Pending) : Queue α :=
  ({ q with pending := rest, running := t.id :: q.running }.setWorker worker
    (.executing t.id)).publish

theorem Accounted.dispatch_eq {transit : List TaskNumber} (h : q.Accounted transit)
    (worker rounds : Nat) :
    dispatch worker (rounds + 1) q = match q.pending.pop? with
      | none => q.setWorker worker .asleep
      | some (t, rest) => q.given worker t rest := by
  unfold dispatch
  cases hp : q.pending.pop? with
  | none => rfl
  | some popped =>
    obtain ⟨t, rest⟩ := popped
    have waits : t ∈ q.pending.toList :=
      (Heap.toList_pop hp).mem_iff.mpr List.mem_cons_self
    have unflagged : isFlagged { q with pending := rest } t.id = false := by
      show (q.task? t.id).any (·.flagged) = false
      rw [h.fresh t waits]
      rfl
    simp only [unflagged, Bool.false_eq_true, if_false]
    rfl

/-- A worker that is awake goes if the queue was stopped, sleeps if it is paused or
nothing waits, and otherwise gets the task that is to start next. -/
theorem Accounted.look_awake {transit : List TaskNumber} (h : q.Accounted transit)
    {worker : Nat} (hw : q.workers[worker]? = some .awake) :
    (q.stopped = true ∧ q.look worker = q.setWorker worker .gone) ∨
    (q.stopped = false ∧ (q.paused = true ∨ q.pending = .empty) ∧
      q.look worker = q.setWorker worker .asleep) ∨
    (∃ t rest, q.stopped = false ∧ q.paused = false ∧ q.pending.pop? = some (t, rest) ∧
      q.look worker = q.given worker t rest) := by
  unfold look
  rw [if_pos hw]
  cases q.stopped with
  | true => exact .inl ⟨rfl, rfl⟩
  | false =>
    cases q.paused with
    | true => exact .inr (.inl ⟨rfl, .inl rfl, rfl⟩)
    | false =>
      rw [if_neg Bool.false_ne_true, if_neg Bool.false_ne_true, h.dispatch_eq]
      cases hp : q.pending.pop? with
      | none =>
        refine .inr (.inl ⟨rfl, .inr ?_, rfl⟩)
        cases hq : q.pending with
        | empty => rfl
        | node top left right =>
          rw [hq] at hp
          cases hp
      | some popped => exact .inr (.inr ⟨popped.1, popped.2, rfl, rfl, rfl, rfl⟩)

/-- A worker that looks at the queue does nothing if it is in no position to,
becomes idle, or gets the task that is to start next. -/
theorem Accounted.look_cases {transit : List TaskNumber} (h : q.Accounted transit)
    (worker : Nat) :
    q.look worker = q ∨
    (∃ w, q.workers[worker]? = some .awake ∧ w.task? = none ∧
      q.look worker = q.setWorker worker w) ∨
    (∃ t rest, q.workers[worker]? = some .awake ∧ q.stopped = false ∧ q.paused = false ∧
      q.pending.pop? = some (t, rest) ∧ q.look worker = q.given worker t rest) := by
  by_cases hw : q.workers[worker]? = some .awake
  · rcases h.look_awake hw with ⟨_, eq⟩ | ⟨_, _, eq⟩ | ⟨t, rest, hs, hp, pop, eq⟩
    · exact .inr (.inl ⟨.gone, hw, rfl, eq⟩)
    · exact .inr (.inl ⟨.asleep, hw, rfl, eq⟩)
    · exact .inr (.inr ⟨t, rest, hw, hs, hp, pop, eq⟩)
  · exact .inl (if_neg hw)

/-! ## Every step keeps the ledger -/

theorem look_accounted (h : q.Accounted []) (worker : Nat) : (q.look worker).Accounted [] := by
  rcases h.look_cases worker with same | ⟨w, hw, idle, eq⟩ | ⟨t, rest, hw, _, _, pop, eq⟩
  · rw [same]
    exact h
  · rw [eq]
    exact h.setWorkers (Worker.busy_set_idle hw rfl idle)
  · rw [eq]
    exact (h.give hw rfl pop).publish

theorem submit_accounted (h : q.Accounted []) (priority : Priority) (choice : Nat) :
    (q.submit priority choice).2.Accounted [] := by
  have new_waiting : q.tasks.size + 1 ∉ q.waiting := by
    intro hid
    exact absurd (h.waiting_le_size hid) (Nat.not_succ_le_self _)
  have new_running : q.tasks.size + 1 ∉ q.running := by
    intro hid
    exact absurd (h.known _ hid) (Nat.not_succ_le_self _)
  have entered := h.enter priority
  refine Accounted.publish ?_
  dsimp only
  split
  · exact entered.abandon new_waiting
  · have found : task? { q with tasks := q.tasks.push ⟨priority, false, none⟩ } (q.tasks.size + 1)
        = some ⟨priority, false, none⟩ := by
      rw [task?_push, if_pos rfl]
    have apart : q.tasks.size + 1 ∉ q.waiting ++ q.running := by
      rw [List.mem_append, not_or]
      exact ⟨new_waiting, new_running⟩
    exact (entered.enqueue found apart).setWorkers (Worker.busy_wakeOne _ _)

theorem finish_accounted (h : q.Accounted []) (worker : Nat) (e : WorkEnd α) :
    (q.finish worker e).Accounted [] := by
  rcases finish_cases q worker e with ⟨id, hw⟩ | same
  · exact h.finish hw e
  · rw [same]
    exact h

theorem record_accounted (h : q.Accounted []) (worker : Nat) : (q.record worker).Accounted [] := by
  rcases record_cases q worker with ⟨id, ending, hw⟩ | same
  · exact h.record hw
  · rw [same]
    exact h

theorem Accounted.drop (h : q.Accounted []) {rest : Pending} {removed : List Ticket}
    (ordered : rest.Ordered Ticket.before) (apart : q.pending.toList.Perm (removed ++ rest.toList)) :
    ({ q with pending := rest }.abandonAll (removed.map Ticket.id)).Accounted [] := by
  refine (h.take ordered apart).abandonAll ?_
  intro id hid hw
  have distinct := (apart.map Ticket.id).nodup_iff.mp (List.nodup_append.mp h.distinct).1
  rw [List.map_append] at distinct
  exact (List.nodup_append.mp distinct).2.2 id hid id hw rfl

theorem Accounted.abandon_running (h : q.Accounted []) {ids : List TaskNumber}
    (hids : ∀ id ∈ ids, id ∈ q.running) : (q.abandonAll ids).Accounted [] := by
  have weak : q.Accounted (ids ++ []) := h.mono (List.nil_subset _)
  exact weak.abandonAll fun id hid => h.running_not_waiting (hids id hid)

theorem setBackground_accounted (h : q.Accounted []) (enabled : Bool) :
    (q.setBackground enabled).Accounted [] := by
  unfold setBackground
  split
  · exact h
  · have switched : Accounted { q with backgroundEnabled := enabled } [] := h.switches _ _ _ _
    refine Accounted.publish ?_
    dsimp only
    split
    · exact switched
    · have dropped := switched.drop (q.pending.ordered_drain _)
        (q.pending.drain_perm (·.priority.isBackground))
      refine dropped.abandon_running ?_
      intro id hid
      exact List.mem_of_mem_filter hid

theorem stop_accounted (h : q.Accounted []) : q.stop.Accounted [] := by
  unfold stop
  split
  · exact h
  · have stopped : Accounted { q with stopped := true } [] := h.switches _ _ _ _
    have dropped : ({ q with stopped := true, pending := .empty }.abandonAll
        (q.pending.toList.map Ticket.id)).Accounted [] :=
      stopped.drop trivial (.of_eq (List.append_nil _).symm)
    refine Accounted.wakeAll (Accounted.publish ?_)
    refine dropped.abandon_running ?_
    intro id hid
    rw [abandonAll_frame]
    exact hid

/-! ## Cancelling -/

theorem remove_isSome (p : Pending) (id : TaskNumber) :
    (p.remove id).1.isSome = true ↔ id ∈ p.toList.map Ticket.id := by
  unfold Pending.remove Pending.drain
  dsimp only
  rw [Heap.drain_fst]
  simp

theorem cancel_waiting {id : TaskNumber} (h : id ∈ q.waiting) : q.cancel id
    = (true, ({ q with pending := (q.pending.remove id).2 }.abandon id).2.publish) := by
  have found := (remove_isSome q.pending id).mpr h
  unfold cancel
  split
  · next t rest eq => rw [eq]
  · next eq =>
    rw [eq] at found
    cases found

theorem cancel_not_waiting {id : TaskNumber} (h : id ∉ q.waiting) : q.cancel id
    = if q.running.contains id then
        ((q.abandon id).1, if (q.abandon id).1 then (q.abandon id).2.publish else (q.abandon id).2)
      else (false, q) := by
  have found := mt (remove_isSome q.pending id).mp h
  unfold cancel
  split
  · next eq =>
    rw [eq] at found
    exact absurd rfl found
  · rfl

theorem cancel_accounted (h : q.Accounted []) (id : TaskNumber) :
    (q.cancel id).2.Accounted [] := by
  by_cases hw : id ∈ q.waiting
  · rw [cancel_waiting hw]
    refine Accounted.publish ?_
    have taken := h.take (q.pending.ordered_drain _) (q.pending.drain_perm (·.id == id))
    have transit : Accounted { q with pending := (q.pending.remove id).2 } [id] := by
      refine taken.mono ?_
      intro j hj
      rw [List.append_nil] at hj
      obtain ⟨t, ht, rfl⟩ := List.mem_map.mp hj
      rw [Pending.drain, Heap.drain_fst] at ht
      exact List.mem_singleton.mpr (eq_of_beq (List.mem_filter.mp ht).2)
    refine transit.abandon ?_
    intro hid
    obtain ⟨t, ht, same⟩ := List.mem_map.mp hid
    have other := ((q.pending.mem_drain_snd (·.id == id) t).mp ht).2
    rw [same, beq_self_eq_true] at other
    cases other
  · rw [cancel_not_waiting hw]
    split
    · have abandoned : (q.abandon id).2.Accounted [] :=
        (h.mono (List.nil_subset [id])).abandon hw
      dsimp only
      split
      · exact abandoned.publish
      · exact abandoned
    · exact h

/-! ## Every run keeps the ledger -/

theorem apply_accounted (h : q.Accounted []) (event : QueueEvent α) :
    (q.apply event).Accounted [] := by
  cases event with
  | submit priority choice => exact submit_accounted h priority choice
  | look worker => exact look_accounted h worker
  | finish worker workEnd => exact finish_accounted h worker workEnd
  | record worker => exact record_accounted h worker
  | cancel id => exact cancel_accounted h id
  | setBackground enabled => exact setBackground_accounted h enabled
  | pause =>
    show q.pause.Accounted []
    unfold pause
    split
    · exact h
    · exact (h.switches _ true _ _).publish
  | resume =>
    show q.resume.Accounted []
    unfold resume
    split
    · exact (h.switches _ false _ _).publish.wakeAll
    · exact h
  | stop => exact stop_accounted h

theorem start_accounted (workers : Nat) (paused : Bool) :
    (start workers paused : Queue α).Accounted [] := by
  have idle : Worker.busy (List.replicate workers .awake) = [] := by
    simp [Worker.busy, Worker.task?]
  exact {
    ordered := trivial
    distinct := List.nodup_nil
    fresh := fun t ht => absurd ht List.not_mem_nil
    placed := fun id hid => by simp [isOpen, task?, start] at hid
    known := fun id hid => absurd hid List.not_mem_nil
    held := by
      show List.Perm [] ((Worker.busy (List.replicate workers .awake)).filterMap Worker.task?)
      rw [idle]
      exact .refl _
    ended := by
      intro id e hm
      rw [show (start workers paused : Queue α).workers = List.replicate workers .awake from rfl,
        idle] at hm
      exact absurd hm List.not_mem_nil
    balanced := by
      intro e
      rw [show (start workers paused : Queue α).workers = List.replicate workers .awake from rfl,
        idle]
      cases e <;> rfl }

theorem run_induction {motive : Queue α → Prop} (step : ∀ q event, motive q → motive (q.apply event))
    (start : motive q) (events : List (QueueEvent α)) : motive (q.run events) := by
  unfold run
  induction events generalizing q with
  | nil => exact start
  | cons event events ih => exact ih (step q event start)

theorem Accounted.run_induction {motive : Queue α → Prop} (h : q.Accounted [])
    (step : ∀ q, q.Accounted [] → motive q → ∀ event, motive (q.apply event))
    (start : motive q) (events : List (QueueEvent α)) :
    (q.run events).Accounted [] ∧ motive (q.run events) := by
  refine Queue.run_induction (motive := fun q => q.Accounted [] ∧ motive q) ?_ ⟨h, start⟩ events
  exact fun q event both => ⟨apply_accounted both.1 event, step q both.1 both.2 event⟩

/-- **Every reachable queue is accounted for.** -/
theorem run_accounted (workers : Nat) (paused : Bool) (events : List (QueueEvent α)) :
    ((start workers paused).run events).Accounted [] :=
  run_induction (motive := fun q => q.Accounted []) (fun _ event h => apply_accounted h event)
    (start_accounted workers paused) events

/-! ## What no step takes back -/

/-- A queue as it can be some steps later. -/
structure Later (q q' : Queue α) : Prop where
  size_le : q.tasks.size ≤ q'.tasks.size
  ages : ∀ id t, q.task? id = some t → ∃ t', q'.task? id = some t' ∧ t.Ages t'
  result_kept : ∀ id r, q.result? id = some r → q'.result? id = some r
  waits_new : ∀ id ∈ q'.waiting, id ∈ q.waiting ∨ q.tasks.size < id

theorem Later.refl (q : Queue α) : q.Later q :=
  ⟨Nat.le_refl _, fun _ t h => ⟨t, h, .refl t⟩, fun _ _ h => h, fun _ h => .inl h⟩

theorem Later.trans {q₁ q₂ q₃ : Queue α} (h : q₁.Later q₂) (h' : q₂.Later q₃) : q₁.Later q₃ where
  size_le := Nat.le_trans h.size_le h'.size_le
  ages id t ht := by
    obtain ⟨t₁, ht₁, older⟩ := h.ages id t ht
    obtain ⟨t₂, ht₂, later⟩ := h'.ages id t₁ ht₁
    exact ⟨t₂, ht₂, older.trans later⟩
  result_kept id r hr := h'.result_kept id r (h.result_kept id r hr)
  waits_new id hid := by
    rcases h'.waits_new id hid with hw | new
    · exact h.waits_new id hw
    · exact .inr (Nat.lt_of_le_of_lt h.size_le new)

theorem Later.of_tasks {q' : Queue α} (same : q'.tasks = q.tasks) (sub : q'.waiting ⊆ q.waiting) :
    q.Later q' where
  size_le := Nat.le_of_eq (by rw [same])
  ages id t ht := by
    refine ⟨t, ?_, .refl t⟩
    unfold task? at *
    rw [same]
    exact ht
  result_kept id r hr := by
    unfold result? task? at *
    rw [same]
    exact hr
  waits_new id hid := .inl (sub hid)

theorem Later.publish {q' : Queue α} (h : q.Later q') : q.Later q'.publish :=
  h.trans (.of_tasks rfl (List.Subset.refl _))

theorem Later.wakeAll {q' : Queue α} (h : q.Later q') : q.Later q'.wakeAll :=
  h.trans (.of_tasks rfl (List.Subset.refl _))

theorem later_settle (q : Queue α) (id : TaskNumber) (flag : Bool) (result : TaskAnswer α) :
    q.Later (q.modifyTask id (Task.settle flag result)) where
  size_le := Nat.le_of_eq (size_modifyTask q id _).symm
  ages j t ht := by
    rw [task?_modifyTask]
    split
    · exact ⟨_, congrArg (Option.map (Task.settle flag result)) ht, t.settle_ages flag result⟩
    · exact ⟨t, ht, .refl t⟩
  result_kept _ _ hr := result?_settle hr
  waits_new j hj := by
    rw [modifyTask_frame] at hj
    exact .inl hj

theorem later_abandon (q : Queue α) (id : TaskNumber) : q.Later (q.abandon id).2 := by
  rw [abandon_eq]
  exact (later_settle q id true _).trans (.of_tasks rfl (List.Subset.refl _))

theorem later_abandonAll (q : Queue α) (ids : List TaskNumber) : q.Later (q.abandonAll ids) := by
  unfold abandonAll
  induction ids generalizing q with
  | nil => exact .refl q
  | cons id ids ih => exact (later_abandon q id).trans (ih _)

theorem later_enter (q : Queue α) (t : Task α) : q.Later { q with tasks := q.tasks.push t } where
  size_le := by
    rw [Array.size_push]
    exact Nat.le_succ _
  ages id t' ht := by
    refine ⟨t', ?_, .refl t'⟩
    rw [task?_push, if_neg (Nat.ne_of_lt (Nat.lt_succ_of_le (le_size ht))), ht]
  result_kept id r hr := by
    obtain ⟨t, ht, hr⟩ := Option.bind_eq_some_iff.mp hr
    unfold result?
    rw [task?_push, if_neg (Nat.ne_of_lt (Nat.lt_succ_of_le (le_size ht))), ht]
    exact hr
  waits_new id hid := .inl hid

theorem later_submit (q : Queue α) (priority : Priority) (choice : Nat) :
    q.Later (q.submit priority choice).2 := by
  have entered := later_enter q ⟨priority, false, none⟩
  unfold submit
  dsimp only
  split
  · exact (entered.trans (later_abandon _ _)).publish
  · exact {
      size_le := entered.size_le
      ages := entered.ages
      result_kept := entered.result_kept
      waits_new := by
        intro id hid
        have pushed := (q.pending.toList_push ⟨q.tasks.size + 1, priority⟩).map Ticket.id
        rcases List.mem_cons.mp (pushed.mem_iff.mp hid) with rfl | hid
        · exact .inr (Nat.lt_succ_self _)
        · exact .inl hid }

theorem Accounted.later_look (h : q.Accounted []) (worker : Nat) : q.Later (q.look worker) := by
  rcases h.look_cases worker with same | ⟨w, _, _, eq⟩ | ⟨t, rest, _, _, _, pop, eq⟩
  · rw [same]
    exact .refl q
  · rw [eq]
    exact .of_tasks rfl (List.Subset.refl _)
  · rw [eq]
    refine .of_tasks rfl ?_
    intro id hid
    have apart : q.waiting.Perm (t.id :: rest.toList.map Ticket.id) := (Heap.toList_pop pop).map _
    exact apart.mem_iff.mpr (List.mem_cons_of_mem _ hid)

theorem waiting_drain_subset (q : Queue α) (test : Ticket → Bool) :
    waiting { q with pending := (q.pending.drain test).2 } ⊆ q.waiting := by
  intro id hid
  obtain ⟨t, ht, rfl⟩ := List.mem_map.mp hid
  exact List.mem_map_of_mem ((q.pending.mem_drain_snd test t).mp ht).1

theorem later_setBackground (q : Queue α) (enabled : Bool) : q.Later (q.setBackground enabled) := by
  unfold setBackground
  split
  · exact .refl q
  · dsimp only
    split
    · exact .of_tasks rfl (List.Subset.refl _)
    · have drained : q.Later { q with
          backgroundEnabled := enabled
          pending := (q.pending.drain (·.priority.isBackground)).2 } :=
        .of_tasks rfl (waiting_drain_subset q _)
      refine Later.publish ?_
      exact (drained.trans (later_abandonAll _ _)).trans (later_abandonAll _ _)

theorem later_stop (q : Queue α) : q.Later q.stop := by
  unfold stop
  split
  · exact .refl q
  · have emptied : q.Later { q with stopped := true, pending := .empty } :=
      .of_tasks rfl (List.nil_subset _)
    refine Later.wakeAll (Later.publish ?_)
    exact (emptied.trans (later_abandonAll _ _)).trans (later_abandonAll _ _)

theorem later_cancel (q : Queue α) (id : TaskNumber) : q.Later (q.cancel id).2 := by
  by_cases hw : id ∈ q.waiting
  · rw [cancel_waiting hw]
    have drained : q.Later { q with pending := (q.pending.remove id).2 } :=
      .of_tasks rfl (waiting_drain_subset q _)
    exact (drained.trans (later_abandon _ id)).publish
  · rw [cancel_not_waiting hw]
    split
    · dsimp only
      split
      · exact (later_abandon q id).publish
      · exact later_abandon q id
    · exact .refl q

theorem later_finish (q : Queue α) (worker : Nat) (e : WorkEnd α) : q.Later (q.finish worker e) := by
  rcases finish_cases q worker e with ⟨id, hw⟩ | same
  · rw [finish_eq e hw]
    exact (later_settle q id _ _).trans (.of_tasks rfl (List.Subset.refl _))
  · rw [same]
    exact .refl q

theorem later_record (q : Queue α) (worker : Nat) : q.Later (q.record worker) := by
  rcases record_cases q worker with ⟨id, ending, hw⟩ | same
  · obtain ⟨_, _, _, recorded, _⟩ := record_eq hw
    rw [recorded]
    exact .of_tasks rfl (List.Subset.refl _)
  · rw [same]
    exact .refl q

theorem Accounted.later_apply (h : q.Accounted []) (event : QueueEvent α) :
    q.Later (q.apply event) := by
  cases event with
  | submit priority choice => exact later_submit q priority choice
  | look worker => exact h.later_look worker
  | finish worker workEnd => exact later_finish q worker workEnd
  | record worker => exact later_record q worker
  | cancel id => exact later_cancel q id
  | setBackground enabled => exact later_setBackground q enabled
  | pause =>
    show q.Later q.pause
    unfold pause
    split
    · exact .refl q
    · exact .of_tasks rfl (List.Subset.refl _)
  | resume =>
    show q.Later q.resume
    unfold resume
    split
    · exact .of_tasks rfl (List.Subset.refl _)
    · exact .refl q
  | stop => exact later_stop q

theorem Accounted.later_run (h : q.Accounted []) (events : List (QueueEvent α)) :
    (q.run events).Accounted [] ∧ q.Later (q.run events) :=
  h.run_induction (fun _ h' later event => later.trans (h'.later_apply event)) (.refl q) events

end ReadAhead.Queue
