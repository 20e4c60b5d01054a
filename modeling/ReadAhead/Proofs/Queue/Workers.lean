import Mathlib.Data.List.Perm.Basic
import ReadAhead.Queue.State

/-!
  Workers — who holds a task

  A worker holds a task from the moment it is given one until it has recorded
  its end. All that the tasks know of the workers is who holds one and what is
  still to be recorded, so it is enough to follow `Worker.busy`, the workers that
  hold a task, in any order.

  Whether the others sleep or are awake matters for those that wait, which is told
  by counting the workers that are awake.

  What is proved:
    1. `busy_set` — giving one worker something else to do exchanges this worker
       for another among the busy ones.
    2. `busy_wakeOne`, `busy_woken` — waking workers does not change who is busy.
    3. `awake_set`, `awake_wakeOne` — how many workers are awake when one is given
       something else to do, and when one is woken.
    4. `begun_set`, `begun_woken` — which tasks begin when one worker is given
       something else to do, and that none does when workers are woken.
-/

namespace ReadAhead.Worker

def task? : Worker → Option TaskNumber
  | executing id => some id
  | recording id _ => some id
  | _ => none

/-- Whether a worker is about to count the end of a task under a counter. -/
def owes (e : Ending) : Worker → Bool
  | recording _ ending => ending == some e
  | _ => false

theorem owes_executing (e : Ending) (id : TaskNumber) : (executing id).owes e = false := rfl

theorem owes_recording (e : Ending) (id : TaskNumber) (fresh : Bool) (ending : Ending) :
    (recording id (if fresh then some ending else none)).owes e = (fresh && ending == e) := by
  cases fresh <;> rfl

def busy (ws : List Worker) : List Worker := ws.filter (·.task?.isSome)

theorem busy_set {ws : List Worker} {i : Nat} {a : Worker} (h : ws[i]? = some a) :
    ∃ others, (busy ws).Perm (busy [a] ++ others) ∧
      ∀ b, (busy (ws.set i b)).Perm (busy [b] ++ others) := by
  obtain ⟨hi, rfl⟩ := List.getElem?_eq_some_iff.mp h
  refine ⟨busy (ws.eraseIdx i), ?_, ?_⟩
  · have apart := (List.getElem_cons_eraseIdx_perm hi).symm.filter (·.task?.isSome)
    rw [← List.singleton_append, List.filter_append] at apart
    exact apart
  · intro b
    have apart := (List.set_perm_cons_eraseIdx hi b).filter (·.task?.isSome)
    rw [← List.singleton_append, List.filter_append] at apart
    exact apart

theorem busy_set_idle {ws : List Worker} {i : Nat} {a b : Worker} (h : ws[i]? = some a)
    (ha : a.task? = none) (hb : b.task? = none) : (busy (ws.set i b)).Perm (busy ws) := by
  obtain ⟨others, before, after⟩ := busy_set h
  have none_a : busy [a] = [] := by simp [busy, ha]
  have none_b : busy [b] = [] := by simp [busy, hb]
  rw [none_a, List.nil_append] at before
  have after := after b
  rw [none_b, List.nil_append] at after
  exact after.trans before.symm

theorem wakeOne_asleep {ws : List Worker} (sleeps : asleep ∈ ws) (choice : Nat) :
    ∃ i, ws[i]? = some asleep ∧ wakeOne ws choice = ws.set i awake := by
  unfold wakeOne
  split
  · next h => exact ⟨choice, h, rfl⟩
  · cases hi : ws.findIdx? (· == asleep) with
    | none => exact absurd rfl (ne_of_beq_false (List.findIdx?_eq_none_iff.mp hi asleep sleeps))
    | some i =>
      obtain ⟨inside, found, _⟩ := List.findIdx?_eq_some_iff_getElem.mp hi
      refine ⟨i, ?_, rfl⟩
      rw [List.getElem?_eq_getElem inside, eq_of_beq found]

theorem wakeOne_awake {ws : List Worker} (none_sleeps : asleep ∉ ws) (choice : Nat) :
    wakeOne ws choice = ws := by
  have nowhere : ws.findIdx? (· == asleep) = none := by
    refine List.findIdx?_eq_none_iff.mpr fun w hw => beq_false_of_ne ?_
    rintro rfl
    exact none_sleeps hw
  rw [wakeOne, if_neg fun h => none_sleeps (List.mem_of_getElem? h), nowhere]

theorem wakeOne_cases (ws : List Worker) (choice : Nat) :
    wakeOne ws choice = ws ∨
      ∃ i, ws[i]? = some asleep ∧ wakeOne ws choice = ws.set i awake := by
  by_cases sleeps : asleep ∈ ws
  · exact .inr (wakeOne_asleep sleeps choice)
  · exact .inl (wakeOne_awake sleeps choice)

theorem busy_wakeOne (ws : List Worker) (choice : Nat) :
    (busy (wakeOne ws choice)).Perm (busy ws) := by
  rcases wakeOne_cases ws choice with h | ⟨i, hi, h⟩
  · rw [h]
  · rw [h]
    exact busy_set_idle hi rfl rfl

theorem busy_woken (ws : List Worker) : busy (ws.map woken) = busy ws := by
  induction ws with
  | nil => rfl
  | cons w ws ih =>
    unfold busy at *
    rw [List.map_cons, List.filter_cons, List.filter_cons, ih]
    cases w <;> rfl

/-! ## Who is awake, and who sleeps -/

theorem awake_set {ws : List Worker} {i : Nat} {a : Worker} (h : ws[i]? = some a) (b : Worker) :
    (ws.set i b).count awake + (if a = awake then 1 else 0)
      = ws.count awake + if b = awake then 1 else 0 := by
  obtain ⟨hi, rfl⟩ := List.getElem?_eq_some_iff.mp h
  have before := (List.getElem_cons_eraseIdx_perm hi).count_eq awake
  have after := (List.set_perm_cons_eraseIdx hi b).count_eq awake
  simp only [List.count_cons, beq_iff_eq] at before after
  omega

theorem asleep_set {ws : List Worker} {i : Nat} {b : Worker} (none_sleeps : asleep ∉ ws)
    (hb : b ≠ asleep) : asleep ∉ ws.set i b := by
  intro sleeps
  rcases List.mem_or_eq_of_mem_set sleeps with before | now
  · exact none_sleeps before
  · exact hb now.symm

theorem asleep_woken (ws : List Worker) : asleep ∉ ws.map woken := by
  intro sleeps
  obtain ⟨w, _, hw⟩ := List.mem_map.mp sleeps
  cases w <;> cases hw

theorem awake_wakeOne {ws : List Worker} (sleeps : asleep ∈ ws) (choice : Nat) :
    (wakeOne ws choice).count awake = ws.count awake + 1 := by
  obtain ⟨i, hi, eq⟩ := wakeOne_asleep sleeps choice
  have counted := awake_set hi awake
  rw [eq]
  simpa using counted

/-! ## Beginning a task -/

/-- The task that a worker executes now, if it did not before. -/
def begins (before : Worker) : Worker → Option TaskNumber
  | executing id => if before = executing id then none else some id
  | _ => none

/-- The tasks that workers execute now and did not before. -/
def begun (before after : List Worker) : List TaskNumber :=
  (before.zip after).filterMap fun p => p.1.begins p.2

theorem begins_self (w : Worker) : w.begins w = none := by
  cases w with
  | executing id => exact if_pos rfl
  | _ => rfl

theorem begins_woken (w : Worker) : w.begins w.woken = none := by
  cases w with
  | executing id => exact if_pos rfl
  | _ => rfl

theorem begun_cons (a b : Worker) (as bs : List Worker) :
    begun (a :: as) (b :: bs) = (a.begins b).toList ++ begun as bs := by
  unfold begun
  rw [List.zip_cons_cons, List.filterMap_cons]
  cases a.begins b <;> rfl

theorem begun_self (ws : List Worker) : begun ws ws = [] := by
  induction ws with
  | nil => rfl
  | cons w ws ih => rw [begun_cons, begins_self, ih, Option.toList_none, List.nil_append]

theorem begun_woken (ws : List Worker) : begun ws (ws.map woken) = [] := by
  induction ws with
  | nil => rfl
  | cons w ws ih =>
    rw [List.map_cons, begun_cons, begins_woken, ih, Option.toList_none, List.nil_append]

theorem begun_set {ws : List Worker} {i : Nat} {a : Worker} (h : ws[i]? = some a) (b : Worker) :
    begun ws (ws.set i b) = (a.begins b).toList := by
  induction ws generalizing i with
  | nil => simp at h
  | cons w ws ih =>
    cases i with
    | zero =>
      rw [List.getElem?_cons_zero, Option.some.injEq] at h
      subst h
      rw [List.set_cons_zero, begun_cons, begun_self, List.append_nil]
    | succ i =>
      rw [List.getElem?_cons_succ] at h
      rw [List.set_cons_succ, begun_cons, begins_self, ih h, Option.toList_none, List.nil_append]

end ReadAhead.Worker
