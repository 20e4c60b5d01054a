import Mathlib.Data.List.Induction
import Mathlib.Data.List.Permutation
import ReadAhead.Proofs.Queue.Order

/-!
  Runs of pending tasks — what goes in comes out, once and in order

  Whoever keeps the tasks that wait pushes tickets, pops them, and takes some out by their
  number or by a test (`PendingCall`). Every call gives back a list of tickets, and changes
  the heap. Taking out rebuilds the heap from what is left in no particular order, so what
  holds of a heap after any calls is shown from two facts alone: what it holds
  (`Heap.toList`, up to order) and that it is ordered (`Heap.Ordered`).

  What is proved:
    1. `Pending.perform_perm`, `perform_ordered` — a call loses no ticket, adds none but
       what is pushed, and keeps the heap ordered, if no two tickets have one number.
    2. `performAll_kept` — so in every run: what was pushed is what was given back and what
       is held.
    3. `remove_eq_some_iff`, `toList_remove` — taking out by number.
    4. `performAll_pops` — popping so many times gives so many tickets from the front of
       all in the order in which they are due; `upcoming_due` says what this order is.
    5. `pending_faithful` — all of this together, after any calls.
    6. `pending_faithful_mixed` (anti-vacuity) — five tickets, two of which are taken out.
-/

namespace ReadAhead

inductive PendingCall where
  | push (ticket : Ticket)
  | pop
  | remove (id : TaskNumber)
  | drain (test : Ticket → Bool)
  | drainAll

def PendingCall.pushed : PendingCall → List Ticket
  | .push ticket => [ticket]
  | _ => []

/-- A ticket is due before another: it is more urgent, or as urgent and submitted first. -/
def Ticket.Due (a b : Ticket) : Prop :=
  b.priority.rank < a.priority.rank ∨ (a.priority = b.priority ∧ a.id < b.id)

namespace Pending

def perform (p : Pending) : PendingCall → List Ticket × Pending
  | .push ticket => ([], p.push ticket)
  | .pop =>
    match p.pop? with
    | none => ([], p)
    | some (ticket, rest) => ([ticket], rest)
  | .remove id =>
    let (found, rest) := p.remove id
    (found.toList, rest)
  | .drain test => p.drain test
  | .drainAll => p.drainAll

/-- Carries out calls one after the other, starting without tasks: all the tickets given
back, in order, and those that wait in the end. -/
def performAll (calls : List PendingCall) : List Ticket × Pending :=
  calls.foldl (fun (given, p) call => ((given ++ (p.perform call).1), (p.perform call).2))
    ([], .empty)

/-- No two of the tickets have one number. -/
def Distinct (tickets : List Ticket) : Prop := (tickets.map Ticket.id).Nodup

theorem Distinct.part {pushed given held : List Ticket} (distinct : Distinct pushed)
    (parts : pushed.Perm (given ++ held)) : Distinct held := by
  have all := (parts.map Ticket.id).nodup_iff.mp distinct
  rw [List.map_append] at all
  exact (List.nodup_append.mp all).2.1

/-! ## Taking out by number -/

variable {p : Pending}

theorem drain_fst (p : Pending) (test : Ticket → Bool) : (p.drain test).1 = p.toList.filter test :=
  Heap.drain_fst test p

theorem remove_eq (p : Pending) (id : TaskNumber) :
    p.remove id = ((p.toList.filter (·.id == id)).head?, (p.drain (·.id == id)).2) := by
  rw [remove, ← drain_fst]

theorem filter_id_of_mem {tickets : List Ticket} (distinct : Distinct tickets) {t : Ticket}
    (ht : t ∈ tickets) : tickets.filter (·.id == t.id) = [t] := by
  obtain ⟨before, after, rfl⟩ := List.append_of_mem ht
  have apart : t.id ∉ (before ++ after).map Ticket.id :=
    (List.nodup_cons.mp ((List.perm_middle.map Ticket.id).nodup_iff.mp distinct)).1
  have others : ∀ u ∈ before ++ after, ¬ (u.id == t.id) = true := fun u hu same =>
    apart (List.mem_map.mpr ⟨u, hu, eq_of_beq same⟩)
  rw [List.filter_append, List.filter_cons, if_pos (beq_self_eq_true t.id),
    List.filter_eq_nil_iff.mpr fun u hu => others u (List.mem_append_left _ hu),
    List.filter_eq_nil_iff.mpr fun u hu => others u (List.mem_append_right _ hu), List.nil_append]

/-- **The ticket with a number is found** exactly when it waits. -/
theorem remove_eq_some_iff (distinct : Distinct p.toList) {id : TaskNumber} {t : Ticket} :
    (p.remove id).1 = some t ↔ t ∈ p.toList ∧ t.id = id := by
  rw [remove_eq]
  constructor
  · intro found
    obtain ⟨waits, same⟩ := List.mem_filter.mp (List.mem_of_head? found)
    exact ⟨waits, eq_of_beq same⟩
  · rintro ⟨waits, rfl⟩
    rw [filter_id_of_mem distinct waits]
    rfl

theorem toList_remove (p : Pending) (id : TaskNumber) :
    (p.remove id).2.toList.Perm (p.toList.filter (·.id != id)) := by
  rw [remove_eq]
  exact Heap.toList_drain_snd (·.id == id) p

theorem remove_perm (distinct : Distinct p.toList) (id : TaskNumber) :
    p.toList.Perm ((p.remove id).1.toList ++ (p.remove id).2.toList) := by
  have found : (p.remove id).1.toList = (p.drain (·.id == id)).1 := by
    rw [remove_eq, drain_fst]
    dsimp only
    cases matching : p.toList.filter (·.id == id) with
    | nil => rfl
    | cons t others =>
      obtain ⟨waits, same⟩ := List.mem_filter.mp (matching ▸ List.mem_cons_self)
      rw [← eq_of_beq same, filter_id_of_mem distinct waits] at matching
      cases matching
      rfl
  rw [found, remove_eq]
  exact p.drain_perm _

/-! ## One call -/

/-- **No call loses a ticket, and none adds one** but what it pushes. -/
theorem perform_perm (distinct : Distinct p.toList) (call : PendingCall) :
    (call.pushed ++ p.toList).Perm ((p.perform call).1 ++ (p.perform call).2.toList) := by
  cases call with
  | push ticket => exact (p.toList_push ticket).symm
  | pop =>
    rw [perform]
    cases popped : p.pop? with
    | none => exact .refl _
    | some found => exact Heap.toList_pop popped
  | remove id => exact remove_perm distinct id
  | drain test => exact p.drain_perm test
  | drainAll => exact .of_eq (List.append_nil _).symm

theorem perform_ordered (ordered : p.Ordered Ticket.before) (call : PendingCall) :
    (p.perform call).2.Ordered Ticket.before := by
  cases call with
  | push ticket => exact Heap.ordered_push Ticket.before_order ordered ticket
  | pop =>
    rw [perform]
    cases popped : p.pop? with
    | none => exact ordered
    | some found => exact Heap.ordered_pop Ticket.before_order ordered popped
  | remove id =>
    show (p.remove id).2.Ordered Ticket.before
    rw [remove_eq]
    exact p.ordered_drain _
  | drain test => exact p.ordered_drain test
  | drainAll => trivial

/-! ## Runs of calls -/

theorem performAll_concat (calls : List PendingCall) (call : PendingCall) :
    performAll (calls ++ [call])
      = ((performAll calls).1 ++ ((performAll calls).2.perform call).1,
          ((performAll calls).2.perform call).2) :=
  List.foldl_concat ..

/-- **What was pushed is what was given back and what waits**, and the heap is ordered. -/
theorem performAll_kept (calls : List PendingCall)
    (distinct : Distinct (calls.flatMap PendingCall.pushed)) :
    (calls.flatMap PendingCall.pushed).Perm
        ((performAll calls).1 ++ (performAll calls).2.toList) ∧
      (performAll calls).2.Ordered Ticket.before := by
  induction calls using List.reverseRecOn with
  | nil => exact ⟨.refl _, trivial⟩
  | append_singleton calls call ih =>
    rw [List.flatMap_append, List.flatMap_singleton] at distinct ⊢
    have before : Distinct (calls.flatMap PendingCall.pushed) := by
      rw [Distinct, List.map_append] at distinct
      exact (List.nodup_append.mp distinct).1
    obtain ⟨kept, ordered⟩ := ih before
    have taken : (calls.flatMap PendingCall.pushed ++ call.pushed).Perm
        ((performAll calls).1 ++ (call.pushed ++ (performAll calls).2.toList)) := by
      refine (kept.append_right call.pushed).trans ?_
      rw [List.append_assoc]
      exact List.perm_append_comm.append_left _
    rw [performAll_concat, List.append_assoc]
    exact ⟨taken.trans ((perform_perm (before.part kept) call).append_left _),
      perform_ordered ordered call⟩

/-! ## Popping until none is left -/

theorem pop_eq_none_iff : p.pop? = none ↔ p = .empty := by
  cases p with
  | empty => exact ⟨fun _ => rfl, fun _ => rfl⟩
  | node top left right => exact ⟨nofun, nofun⟩

/-- What is popped first does not depend on how much is popped. -/
theorem popped_eq_take (n : Nat) (p : Pending) : popped n p = p.upcoming.take n := by
  induction n generalizing p with
  | zero => rw [popped, List.take_zero]
  | succ n ih =>
    cases found : p.pop? with
    | none =>
      rw [pop_eq_none_iff.mp found]
      rfl
    | some first =>
      have fewer : p.toList.length = first.2.toList.length + 1 := (Heap.toList_pop found).length_eq
      rw [upcoming, fewer, popped, popped, found]
      dsimp only
      rw [List.take_succ_cons, ih]
      rfl

/-- **Popping so many times gives so many tickets** from the front of those to come. -/
theorem performAll_pops (calls : List PendingCall) (n : Nat) :
    (performAll (calls ++ List.replicate n .pop)).1
      = (performAll calls).1 ++ (performAll calls).2.upcoming.take n := by
  rw [← popped_eq_take]
  induction n generalizing calls with
  | zero => rw [List.replicate_zero, List.append_nil, popped, List.append_nil]
  | succ n ih =>
    rw [List.replicate_succ, List.append_cons, ih, performAll_concat, perform, popped]
    cases found : (performAll calls).2.pop? with
    | none =>
      have nothing : popped n (performAll calls).2 = [] := by
        rw [popped_eq_take, pop_eq_none_iff.mp found]
        exact List.take_nil
      rw [nothing, List.append_nil, List.append_nil]
    | some first => rw [List.append_assoc, List.singleton_append]

theorem upcoming_due (ordered : p.Ordered Ticket.before) (distinct : Distinct p.toList) :
    p.upcoming.Pairwise Ticket.Due := by
  have apart : p.upcoming.Pairwise fun a b => a.id ≠ b.id :=
    List.pairwise_map.mp ((p.upcoming_perm.map Ticket.id).nodup_iff.mpr distinct)
  refine ((upcoming_ordered ordered).and apart).imp fun {a b} h => ?_
  obtain ⟨late, apart⟩ := h
  rw [Bool.eq_false_iff, ne_eq, Ticket.before_iff] at late
  by_cases same : a.priority.rank = b.priority.rank
  · have smaller : a.id < b.id := by
      dsimp only [TaskNumber] at *
      omega
    exact .inr ⟨Priority.rank_injective same, smaller⟩
  · exact .inl (by omega)

/-- **The tasks that wait are a faithful queue.** After any calls that push no number twice:
what was pushed is what was given back and what waits. The ticket with a number is found
exactly when it waits, and all others wait on; a test takes out exactly what passes it;
and all can be taken out. Something is popped unless nothing waits. Popping so many times
gives so many from the front of all that wait, in an order where each is due before those
after it: the most urgent first, and of equally urgent ones the one with the smallest
number. -/
theorem pending_faithful (calls : List PendingCall)
    (distinct : ((calls.flatMap PendingCall.pushed).map Ticket.id).Nodup) :
    let given := (performAll calls).1
    let p := (performAll calls).2
    (calls.flatMap PendingCall.pushed).Perm (given ++ p.toList) ∧
    (∀ id t, (p.remove id).1 = some t ↔ t ∈ p.toList ∧ t.id = id) ∧
    (∀ id, (p.remove id).2.toList.Perm (p.toList.filter (·.id != id))) ∧
    (∀ test, (p.drain test).1.Perm (p.toList.filter test) ∧
      (p.drain test).2.toList.Perm (p.toList.filter fun t => !test t)) ∧
    (p.drainAll.1.Perm p.toList ∧ p.drainAll.2.toList = []) ∧
    (p.pop? = none ↔ p.toList = []) ∧
    (∀ n, (performAll (calls ++ List.replicate n .pop)).1 = given ++ p.upcoming.take n) ∧
    p.upcoming.Perm p.toList ∧
    p.upcoming.Pairwise fun a b => b.priority.rank < a.priority.rank ∨
      (a.priority = b.priority ∧ a.id < b.id) := by
  intro given p
  obtain ⟨kept, ordered⟩ := performAll_kept calls distinct
  have waiting : Distinct p.toList := Distinct.part distinct kept
  refine ⟨kept, fun id t => remove_eq_some_iff waiting, p.toList_remove, fun test => ?_,
    ⟨.refl _, rfl⟩, ?_, performAll_pops calls, p.upcoming_perm, upcoming_due ordered waiting⟩
  · rw [drain_fst]
    exact ⟨.refl _, Heap.toList_drain_snd test p⟩
  · rw [pop_eq_none_iff]
    cases p with
    | empty => exact ⟨fun _ => rfl, fun _ => rfl⟩
    | node top left right => exact ⟨nofun, nofun⟩

/-- **Not vacuous**: five tickets, of which one is taken out by its number and one by its
priority. The other three come by urgency first, and by number among equally urgent ones. -/
theorem pending_faithful_mixed :
    let calls : List PendingCall :=
      [.push ⟨1, .thumbnail⟩, .push ⟨2, .visible⟩, .push ⟨3, .nearby⟩, .push ⟨4, .visible⟩,
        .push ⟨5, .thumbnail⟩, .remove 2, .drain fun t => t.priority == .nearby]
    ((performAll calls).2.remove 5).1 = some ⟨5, .thumbnail⟩ ∧
    ((performAll calls).2.remove 2).1 ≠ some ⟨2, .visible⟩ ∧
    (performAll (calls ++ List.replicate 3 .pop)).1
      = [⟨2, .visible⟩, ⟨3, .nearby⟩] ++ [⟨4, .visible⟩, ⟨1, .thumbnail⟩, ⟨5, .thumbnail⟩] := by
  intro calls
  have held : (performAll calls).2.toList
      = [⟨4, .visible⟩, ⟨5, .thumbnail⟩, ⟨1, .thumbnail⟩] := by cbv
  have taken : (performAll calls).1 = [⟨2, .visible⟩, ⟨3, .nearby⟩] := by cbv
  have due : (performAll calls).2.upcoming
      = [⟨4, .visible⟩, ⟨1, .thumbnail⟩, ⟨5, .thumbnail⟩] := by cbv
  obtain ⟨_, found, _, _, _, _, pops, _, _⟩ := pending_faithful calls (by decide)
  rw [held] at found
  rw [taken, due] at pops
  exact ⟨(found 5 _).mpr (by decide), fun there => absurd ((found 2 _).mp there) (by decide),
    pops 3⟩

end Pending

end ReadAhead
