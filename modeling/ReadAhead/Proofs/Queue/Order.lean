import ReadAhead.Queue.Pending

/-!
  Order of pending tasks — what a heap holds, and what it gives back first

  Every operation on a heap is told by its effect on the elements (`Heap.toList`,
  up to their order there) and on the heap order (`Heap.Ordered`: nothing below a
  node comes before it).

  What is proved:
    1. `toList_merge`, `ordered_merge` — merging two heaps loses nothing, adds
       nothing and keeps the heap order, if the test is a weak order. Pushing,
       popping and building from a list are merges (`toList_push`, `toList_pop`,
       `toList_ofList`).
    2. `pop_foremost` — the element on top comes no later than any other.
    3. `Ticket.before_order` — the order in which tasks start is a weak order,
       so all of this holds of pending tasks; `Pending.pop_first` says which task
       that is: the most urgent one, and the one with the smallest number among
       equally urgent ones.
    4. `Pending.upcoming_drain` — taking out what passes a test leaves the others in
       the order in which they would have been popped.
-/

namespace ReadAhead

/-- A test by which elements can be sorted: what is not before each other is
equally far in front. -/
structure WeakOrder {α : Type} (before : α → α → Bool) : Prop where
  irrefl : ∀ a, before a a = false
  trans : ∀ a b c, before a b = true → before b c = true → before a c = true
  apart : ∀ a b c, before a c = true → before a b = true ∨ before b c = true

section

variable {α : Type} {before : α → α → Bool}

theorem WeakOrder.before_false {a b c : α} (order : WeakOrder before)
    (hab : before a b = false) (hbc : before b c = false) : before a c = false := by
  cases hac : before a c with
  | false => rfl
  | true =>
    rcases order.apart a b c hac with h | h
    · rw [h] at hab; exact hab
    · rw [h] at hbc; exact hbc

theorem WeakOrder.asymm {a b : α} (order : WeakOrder before) (h : before a b = true) :
    before b a = false := by
  cases hba : before b a with
  | false => rfl
  | true => rw [← order.irrefl a, order.trans a b a h hba]

end

namespace Heap

variable {α : Type} {before : α → α → Bool}

/-- Nothing below a node comes before it. -/
def Ordered (before : α → α → Bool) : Heap α → Prop
  | empty => True
  | node a l r => (∀ b ∈ l.toList ++ r.toList, before b a = false) ∧
      l.Ordered before ∧ r.Ordered before

theorem length_toList (h : Heap α) : h.toList.length = h.size := by
  induction h with
  | empty => rfl
  | node a l r left right =>
    rw [toList, List.length_cons, List.length_append, left, right]
    rfl

theorem merge_empty_left (h : Heap α) : merge before empty h = h := by
  cases h <;> rw [merge]

/-- What goes into the right subtree of a node and changes places with the left
one is below the node afterwards. -/
theorem perm_below {b : α} {m xs l r : List α} (h : m.Perm (r ++ xs)) :
    (b :: (m ++ l)).Perm (xs ++ (b :: (l ++ r))) := by
  have inner : (m ++ l).Perm (xs ++ (l ++ r)) := by
    calc List.Perm (m ++ l) ((r ++ xs) ++ l) := h.append_right l
      List.Perm _ ((xs ++ r) ++ l) := List.perm_append_comm.append_right l
      List.Perm _ (xs ++ (l ++ r)) := by
        rw [List.append_assoc]
        exact List.perm_append_comm.append_left xs
  exact (inner.cons b).trans List.perm_middle.symm

theorem toList_merge (g h : Heap α) :
    (merge before g h).toList.Perm (g.toList ++ h.toList) := by
  induction g, h using merge.induct before with
  | case1 h => rw [merge_empty_left]; exact .refl _
  | case2 g hne =>
    cases g with
    | empty => exact absurd rfl hne
    | node a l r =>
      rw [merge, toList.eq_1, List.append_nil]
      exact hne
  | case3 a l r b l' r' hb ih =>
    rw [merge, if_pos hb]
    exact perm_below ih
  | case4 a l r b l' r' hb ih =>
    rw [merge, if_neg hb]
    exact (perm_below ih).trans List.perm_append_comm

theorem Ordered.top {a b : α} {l r : Heap α} (order : WeakOrder before)
    (h : (node a l r).Ordered before) (hb : b ∈ (node a l r).toList) : before b a = false := by
  rcases List.mem_cons.mp hb with rfl | hb
  · exact order.irrefl b
  · exact h.1 b hb

theorem ordered_merge (order : WeakOrder before) {g h : Heap α}
    (hg : g.Ordered before) (hh : h.Ordered before) : (merge before g h).Ordered before := by
  induction g, h using merge.induct before with
  | case1 h => rw [merge_empty_left]; exact hh
  | case2 g hne =>
    cases g with
    | empty => exact absurd rfl hne
    | node a l r =>
      rw [merge]
      · exact hg
      · exact hne
  | case3 a l r b l' r' hb ih =>
    -- the top of `h` stays: what is below `a` is no earlier than `a`, so no earlier than `b`
    rw [merge, if_pos hb]
    refine ⟨?_, ih hh.2.2 hg, hh.2.1⟩
    intro x hx
    rcases List.mem_append.mp hx with hx | hx
    · rcases List.mem_append.mp ((toList_merge r' _).mem_iff.mp hx) with hx | hx
      · exact hh.1 x (List.mem_append_right _ hx)
      · exact order.before_false (hg.top order hx) (order.asymm hb)
    · exact hh.1 x (List.mem_append_left _ hx)
  | case4 a l r b l' r' hb ih =>
    rw [merge, if_neg hb]
    rw [Bool.not_eq_true] at hb
    refine ⟨?_, ih hg.2.2 hh, hg.2.1⟩
    intro x hx
    rcases List.mem_append.mp hx with hx | hx
    · rcases List.mem_append.mp ((toList_merge r _).mem_iff.mp hx) with hx | hx
      · exact hg.1 x (List.mem_append_right _ hx)
      · exact order.before_false (hh.top order hx) hb
    · exact hg.1 x (List.mem_append_left _ hx)

theorem toList_push (h : Heap α) (a : α) : (h.push before a).toList.Perm (a :: h.toList) := by
  refine (toList_merge h _).trans ?_
  simp only [toList, List.append_nil]
  exact List.perm_append_comm

theorem ordered_push (order : WeakOrder before) {h : Heap α} (hh : h.Ordered before) (a : α) :
    (h.push before a).Ordered before :=
  ordered_merge order hh ⟨by simp [toList], trivial, trivial⟩

theorem toList_ofList (as : List α) : (ofList before as).toList.Perm as := by
  have pushes (as : List α) : ∀ h : Heap α,
      (as.foldl (push before) h).toList.Perm (h.toList ++ as) := by
    induction as with
    | nil => intro h; simp
    | cons a as ih =>
      intro h
      refine (ih (h.push before a)).trans ?_
      exact ((toList_push h a).append_right as).trans List.perm_middle.symm
  exact pushes as empty

theorem ordered_ofList (order : WeakOrder before) (as : List α) :
    (ofList before as).Ordered before := by
  have pushes (as : List α) : ∀ h : Heap α, h.Ordered before →
      (as.foldl (push before) h).Ordered before := by
    induction as with
    | nil => exact fun h hh => hh
    | cons a as ih => exact fun h hh => ih _ (ordered_push order hh a)
  exact pushes as empty trivial

theorem toList_pop {h rest : Heap α} {a : α} (hp : h.pop? before = some (a, rest)) :
    h.toList.Perm (a :: rest.toList) := by
  cases h with
  | empty => simp [pop?] at hp
  | node b l r =>
    simp only [pop?, Option.some.injEq, Prod.mk.injEq] at hp
    obtain ⟨rfl, rfl⟩ := hp
    exact (toList_merge l r).symm.cons b

theorem ordered_pop (order : WeakOrder before) {h rest : Heap α} {a : α}
    (hh : h.Ordered before) (hp : h.pop? before = some (a, rest)) : rest.Ordered before := by
  cases h with
  | empty => simp [pop?] at hp
  | node b l r =>
    simp only [pop?, Option.some.injEq, Prod.mk.injEq] at hp
    obtain ⟨rfl, rfl⟩ := hp
    exact ordered_merge order hh.2.1 hh.2.2

theorem pop_foremost (order : WeakOrder before) {h rest : Heap α} {a b : α}
    (hh : h.Ordered before) (hp : h.pop? before = some (a, rest)) (hb : b ∈ h.toList) :
    before b a = false := by
  cases h with
  | empty => simp [pop?] at hp
  | node c l r =>
    simp only [pop?, Option.some.injEq, Prod.mk.injEq] at hp
    obtain ⟨rfl, rfl⟩ := hp
    exact hh.top order hb

theorem drain_fst (p : α → Bool) (h : Heap α) : (h.drain before p).1 = h.toList.filter p := by
  simp [drain]

theorem toList_drain_snd (p : α → Bool) (h : Heap α) :
    (h.drain before p).2.toList.Perm (h.toList.filter fun a => !p a) := by
  simp only [drain, List.partition_eq_filter_filter]
  exact toList_ofList _

theorem drain_perm (p : α → Bool) (h : Heap α) :
    h.toList.Perm ((h.drain before p).1 ++ (h.drain before p).2.toList) := by
  rw [drain_fst]
  exact (List.filter_append_perm p h.toList).symm.trans ((toList_drain_snd p h).symm.append_left _)

theorem ordered_drain (order : WeakOrder before) (p : α → Bool) (h : Heap α) :
    (h.drain before p).2.Ordered before :=
  ordered_ofList order _

end Heap

/-! ## Tickets -/

theorem Priority.rank_injective {p p' : Priority} (h : p.rank = p'.rank) : p = p' := by
  cases p <;> cases p' <;> first | rfl | cases h

theorem Ticket.before_iff (a b : Ticket) : a.before b = true ↔
    b.priority.rank < a.priority.rank ∨ (a.priority.rank = b.priority.rank ∧ a.id < b.id) := by
  simp [before]

theorem Ticket.before_order : WeakOrder Ticket.before where
  irrefl a := by
    rw [Bool.eq_false_iff, ne_eq, before_iff]
    dsimp only [TaskNumber]
    omega
  trans a b c := by simp only [before_iff, TaskNumber]; omega
  apart a b c := by simp only [before_iff, TaskNumber]; omega

namespace Pending

theorem toList_push (p : Pending) (t : Ticket) : (p.push t).toList.Perm (t :: p.toList) :=
  Heap.toList_push p t

theorem drain_perm (p : Pending) (test : Ticket → Bool) :
    p.toList.Perm ((p.drain test).1 ++ (p.drain test).2.toList) :=
  Heap.drain_perm test p

theorem ordered_drain (p : Pending) (test : Ticket → Bool) :
    (p.drain test).2.Ordered Ticket.before :=
  Heap.ordered_drain Ticket.before_order test p

theorem mem_drain_snd (p : Pending) (test : Ticket → Bool) (t : Ticket) :
    t ∈ (p.drain test).2.toList ↔ t ∈ p.toList ∧ test t = false := by
  rw [drain, (Heap.toList_drain_snd test p).mem_iff]
  simp

theorem size_push (p : Pending) (t : Ticket) : (p.push t).size = p.size + 1 := by
  have pushed := (p.toList_push t).length_eq
  rwa [List.length_cons, Heap.length_toList, Heap.length_toList] at pushed

theorem size_pop {p rest : Pending} {t : Ticket} (hp : p.pop? = some (t, rest)) :
    p.size = rest.size + 1 := by
  have apart := (Heap.toList_pop hp).length_eq
  rwa [List.length_cons, Heap.length_toList, Heap.length_toList] at apart

theorem size_drain_le (p : Pending) (test : Ticket → Bool) : (p.drain test).2.size ≤ p.size := by
  have apart := (p.drain_perm test).length_eq
  rw [List.length_append, Heap.length_toList, Heap.length_toList] at apart
  omega

/-- The task that is popped is the most urgent one, and the one with the smallest
number among equally urgent ones. -/
theorem pop_first {p rest : Pending} {t u : Ticket} (h : p.Ordered Ticket.before)
    (hp : p.pop? = some (t, rest)) (hu : u ∈ p.toList) :
    u.priority.rank < t.priority.rank ∨ (u.priority.rank = t.priority.rank ∧ t.id ≤ u.id) := by
  have late := Heap.pop_foremost Ticket.before_order h hp hu
  rw [Bool.eq_false_iff, ne_eq, Ticket.before_iff] at late
  dsimp only [TaskNumber] at *
  omega

/-! ## The order in which all are popped -/

/-- The first tickets that are popped, one after the other. -/
def popped : Nat → Pending → List Ticket
  | 0, _ => []
  | n + 1, p =>
    match p.pop? with
    | none => []
    | some (t, rest) => t :: popped n rest

/-- All tickets, in the order in which they are popped. -/
def upcoming (p : Pending) : List Ticket := popped p.toList.length p

theorem popped_perm {n : Nat} {p : Pending} (enough : p.toList.length ≤ n) :
    (popped n p).Perm p.toList := by
  induction n generalizing p with
  | zero =>
    rw [List.eq_nil_of_length_eq_zero (Nat.le_zero.mp enough)]
    exact .refl _
  | succ n ih =>
    rw [popped]
    cases hp : p.pop? with
    | none =>
      cases p with
      | empty => exact .refl _
      | node top left right => cases hp
    | some found =>
      have apart : p.toList.Perm (found.1 :: found.2.toList) := Heap.toList_pop hp
      have fewer := apart.length_eq
      rw [List.length_cons] at fewer
      exact ((ih (p := found.2) (by omega)).cons found.1).trans apart.symm

theorem upcoming_pop {p rest : Pending} {t : Ticket} (hp : p.pop? = some (t, rest)) :
    p.upcoming = t :: rest.upcoming := by
  have apart := (Heap.toList_pop hp).length_eq
  rw [upcoming, apart, List.length_cons, popped, hp]
  rfl

theorem upcoming_perm (p : Pending) : p.upcoming.Perm p.toList := popped_perm (Nat.le_refl _)

theorem upcoming_ordered {p : Pending} (h : p.Ordered Ticket.before) :
    p.upcoming.Pairwise fun a b => b.before a = false := by
  have tickets (n : Nat) : ∀ p : Pending, p.toList.length ≤ n → p.Ordered Ticket.before →
      (popped n p).Pairwise fun a b => b.before a = false := by
    induction n with
    | zero => exact fun _ _ _ => .nil
    | succ n ih =>
      intro p enough h
      rw [popped]
      cases hp : p.pop? with
      | none => exact .nil
      | some found =>
        have apart : p.toList.Perm (found.1 :: found.2.toList) := Heap.toList_pop hp
        have fewer := apart.length_eq
        rw [List.length_cons] at fewer
        have few : found.2.toList.length ≤ n := by omega
        have later := ih found.2 few (Heap.ordered_pop Ticket.before_order h hp)
        refine List.Pairwise.cons (fun u hu => ?_) later
        -- what is popped later waits now
        have waits := apart.mem_iff.mpr (List.mem_cons_of_mem _ ((popped_perm few).mem_iff.mp hu))
        exact Heap.pop_foremost Ticket.before_order h hp waits
  exact tickets _ p (Nat.le_refl _) h

/-- The order decides between any two tickets. -/
theorem eq_of_not_before {a b : Ticket} (hab : b.before a = false) (hba : a.before b = false) :
    a = b := by
  rw [Bool.eq_false_iff, ne_eq, Ticket.before_iff] at hab hba
  dsimp only [TaskNumber] at *
  have ranks : a.priority.rank = b.priority.rank := by omega
  have ids : a.id = b.id := by
    dsimp only [TaskNumber]
    omega
  calc a = ⟨a.id, a.priority⟩ := rfl
    _ = ⟨b.id, b.priority⟩ := by rw [ids, Priority.rank_injective ranks]

theorem upcoming_drain {p : Pending} (h : p.Ordered Ticket.before) (test : Ticket → Bool) :
    (p.drain test).2.upcoming = p.upcoming.filter fun t => !test t := by
  refine List.Perm.eq_of_pairwise (fun a b _ _ => eq_of_not_before)
    (upcoming_ordered (p.ordered_drain test)) ((upcoming_ordered h).filter _) ?_
  calc List.Perm (p.drain test).2.upcoming (p.drain test).2.toList := upcoming_perm _
    List.Perm _ (p.toList.filter fun t => !test t) := Heap.toList_drain_snd test p
    List.Perm _ (p.upcoming.filter fun t => !test t) := (upcoming_perm p).symm.filter _

end Pending

end ReadAhead
