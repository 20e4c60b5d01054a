import Mathlib.Data.List.Permutation
import ReadAhead.Proofs.Cache.Arithmetic
import ReadAhead.Proofs.Cache.Recency

/-!
  Release — every value that is put leaves the cache once

  A use of the cache takes entries out of the store and lists them; the hook is
  called for the list when the use is over, and may by then use the cache itself.
  A session does this one step at a time, with a stack. Here it is told a second
  time without one: `Runs` and `Frees` say of a program, and of a list of entries
  to be freed, what has happened and how the store is when they are through.

  What is proved:
    1. `perform_letsGo` — which entries a use lets go of, in which order and for
       which reason, and that no other entry leaves.
    2. `unwinds_of_advance` — a session that is over ran as `Runs` says. The hook
       is called for all that a use let go of, in this order, on the store as the
       use has left it, and before the program goes on.
    3. `step_accounted`, `start_accounted` — at every moment the values put so far
       are those in the store, those freed, those taken out by a removal, and
       those still to be freed, each as often as it was put.
    4. `values_leave_once` — so when a session is over, every value that was put
       is in the store, or was freed, or was taken out, and only one of these.
-/

namespace ReadAhead

open Std

set_option linter.unusedSectionVars false

namespace Store

/-! ## What a use lets go of -/

section
variable {K V : Type} [BEq K] [Hashable K]

/-- The entries that leave are the first ones in the order of use; the others
stay in their order. -/
def Sheds (reason : Reason) (s : Store K V) (departed : List (Departure K V)) (t : Store K V) :
    Prop :=
  ∃ evicted, s.kept = evicted ++ t.kept ∧ departed = evicted.map (Kept.leave reason)

/-- What a use answers, what leaves for which reason, and what stays. -/
def LetsGo (measure : K → V → Count) (s : Store K V) (use : CacheCall K V)
    (answer : CacheAnswer V) (departed : List (Departure K V)) (t : Store K V) : Prop :=
  match use with
  -- first the entry that is overwritten, then the evicted ones, oldest first
  | .put key value => answer = .done ∧ ∃ (old : Option (Kept K V)) (evicted rest : _),
      s.kept.filter (·.key == key) = old.toList ∧
      s.kept.filter (fun e => !(e.key == key)) = evicted ++ rest ∧
      departed = old.toList.map (⟨key, ·.value, .replaced⟩) ++ evicted.map (Kept.leave .capacity) ∧
      t.kept = rest ++ [⟨key, value, measure key value⟩]
  | .remove key => departed = [] ∧ ∃ old : Option (Kept K V),
      s.kept.filter (·.key == key) = old.toList ∧
      answer = .value (old.map (·.value)) ∧
      t.kept = s.kept.filter fun e => !(e.key == key)
  | .trimToShare _ | .trimTo _ | .relieve _ =>
      answer = .evicted departed.length ∧ Sheds .trimmed s departed t
  | .setBudget _ => answer = .done ∧ Sheds .trimmed s departed t
  | .clear => answer = .done ∧ t.kept = [] ∧ Sheds .cleared s departed t
  | .get _ => departed = [] ∧ (t.kept.map (·.value)).Perm (s.kept.map (·.value))
  | .peek _ | .contains _ => departed = [] ∧ t.kept = s.kept

end

variable {K V : Type} [BEq K] [Hashable K] [EquivBEq K] [LawfulHashable K]
variable {measure : K → V → Count} {s t : Store K V}

theorem shrink_sheds (h : s.Consistent measure) (target : Count) (reason : Reason) :
    Sheds reason s (s.shrink target reason).1 (s.shrink target reason).2 := by
  obtain ⟨left, stays⟩ := shrink_kept h target reason
  exact ⟨_, by rw [stays, Kept.evictTo_append], left⟩

theorem trimToShare_sheds (h : s.Consistent measure) (share : Float) :
    Sheds .trimmed s (s.trimToShare share).1 (s.trimToShare share).2 := by
  unfold trimToShare
  split
  · exact shrink_sheds h _ _
  · exact ⟨[], rfl, rfl⟩

theorem Consistent.kept_under (h : s.Consistent measure) (key : K) :
    s.kept.filter (·.key == key) = (s.kept.find? (·.key == key)).toList := by
  have apart := h.kept_apart
  generalize s.kept = es at apart ⊢
  induction es with
  | nil => rfl
  | cons e es ih =>
    obtain ⟨others, apart⟩ := List.pairwise_cons.mp apart
    cases same : e.key == key with
    | false =>
      rw [List.filter_cons_of_neg (by simp [same]), List.find?_cons_of_neg (by simp [same]),
        ih apart]
    | true =>
      have no_other : es.filter (·.key == key) = [] := by
        rw [List.filter_eq_nil_iff]
        intro e' he' same'
        have differs := others e' he'
        rw [BEq.trans same (BEq.symm same')] at differs
        cases differs
      rw [List.filter_cons_of_pos (by simp [same]), List.find?_cons_of_pos (by simp [same]), no_other]
      rfl

theorem get_values (h : s.Consistent measure) (key : K) :
    ((s.get key).2.kept.map (·.value)).Perm (s.kept.map (·.value)) := by
  have under := h.kept_under key
  rw [get_kept h]
  split
  · rfl
  · next e found =>
    rw [found] at under
    have split := (List.filter_append_perm (·.key == key) s.kept).map (·.value)
    rw [under] at split
    refine List.Perm.trans ?_ split
    rw [List.map_append, List.map_append]
    exact List.perm_append_comm

/-- **A use lets go of what it says.** -/
theorem perform_letsGo (h : s.Consistent measure) (use : CacheCall K V) :
    s.LetsGo measure use (s.perform measure use).1 (s.perform measure use).2.1
      (s.perform measure use).2.2 := by
  cases use with
  | put key value =>
    obtain ⟨left, stays⟩ := put_kept h key value
    refine ⟨rfl, _, _, _, h.kept_under key, (Kept.evictTo_append _ _).symm, ?_, stays⟩
    rw [h.find?_kept] at left
    rw [perform, left]
    cases s.kept.find? (·.key == key) <;> rfl
  | get key => exact ⟨rfl, get_values h key⟩
  | peek key | contains key => exact ⟨rfl, rfl⟩
  | remove key =>
    refine ⟨rfl, _, h.kept_under key, ?_, kept_extract h key⟩
    rw [perform, ← h.find?_kept, ← extract_answer]
  | trimToShare share => exact ⟨rfl, trimToShare_sheds h share⟩
  | trimTo target => exact ⟨rfl, shrink_sheds h target .trimmed⟩
  | relieve pressure => exact ⟨rfl, trimToShare_sheds h _⟩
  | clear =>
    obtain ⟨left, empty⟩ := kept_clear s
    exact ⟨rfl, empty, s.kept, by rw [perform, empty, List.append_nil], left⟩
  | setBudget budget =>
    have changed : ({ s with budget := budget } : Store K V).Consistent measure :=
      h.congr .rfl rfl rfl rfl
    exact ⟨rfl, shrink_sheds changed budget .trimmed⟩

theorem Consistent.values_kept (h : s.Consistent measure) :
    (s.entries.toList.map (·.2.value)).Perm (s.kept.map (·.value)) := by
  induction hn : s.recency.size generalizing s with
  | zero =>
    rcases h.dropOldest_kept with ⟨empty, _⟩ | ⟨e, _, _, entry, he, _⟩
    · have total := h.total_kept.2
      rw [empty, length, ← HashMap.length_toList] at total
      rw [empty, List.eq_nil_of_length_eq_zero total.symm]
      rfl
    · have used := h.size_recency_extract he
      omega
  | succ n ih =>
    rcases h.dropOldest_kept with ⟨_, zero⟩ | ⟨e, _, split, entry, he, _⟩
    · omega
    · have used := h.size_recency_extract he
      have rest := ih (extract_consistent h e.key) (by omega)
      have out : (s.extract e.key).2.entries = s.entries.erase e.key := by rw [extract, he]
      obtain ⟨entry', he', value, _⟩ := entry_of_mem_kept (split ▸ List.mem_cons_self)
      rw [he, Option.some.injEq] at he'
      obtain ⟨k, _, perm⟩ := toList_of_some he
      rw [split, List.map_cons, ← value, ← he']
      rw [out] at rest
      exact (perm.map _).trans (rest.cons _)

end Store

/-! ## What becomes of the values -/

namespace CacheEvent

variable {K V : Type}

def given : CacheEvent K V → List V
  | .called (.put _ value) _ => [value]
  | _ => []

def freed : CacheEvent K V → List V
  | .released d _ _ => [d.value]
  | _ => []

def takenOut : CacheEvent K V → List V
  | .called (.remove _) (.value found) => found.toList
  | _ => []

end CacheEvent

/-- The values that are still to be freed. -/
def Remainder.due {K V : Type} : Remainder K V → List V
  | .program _ => []
  | .release departed => departed.map (·.value)

theorem Store.Sheds.values {K V : Type} [BEq K] [Hashable K] {reason : Reason} {s t : Store K V}
    {departed : List (Departure K V)} (h : s.Sheds reason departed t) :
    s.kept.map (·.value) = departed.map (·.value) ++ t.kept.map (·.value) := by
  obtain ⟨evicted, split, rfl⟩ := h
  rw [split, List.map_append, List.map_map]
  rfl

theorem Store.LetsGo.values {K V : Type} [BEq K] [Hashable K] {measure : K → V → Count}
    {s t : Store K V} {use : CacheCall K V} {answer : CacheAnswer V}
    {departed : List (Departure K V)} (h : s.LetsGo measure use answer departed t) :
    ((CacheEvent.called use answer).given ++ s.kept.map (·.value)).Perm
      (t.kept.map (·.value) ++ departed.map (·.value) ++ (CacheEvent.called use answer).takenOut) := by
  classical
  rw [List.perm_iff_count]
  intro v
  have apart (key : K) := ((List.filter_append_perm (·.key == key) s.kept).map (·.value)).count_eq v
  simp only [List.map_append, List.count_append] at apart ⊢
  cases use with
  | put key value =>
    obtain ⟨rfl, old, evicted, rest, under, others, rfl, stays⟩ := h
    have split := apart key
    rw [under, others] at split
    rw [stays]
    simp only [CacheEvent.given, CacheEvent.takenOut, Kept.leave, List.map_append, List.map_map,
      List.map_cons, List.map_nil, List.count_append, List.count_nil, Function.comp_def] at split ⊢
    omega
  | remove key =>
    obtain ⟨rfl, old, under, rfl, stays⟩ := h
    have split := apart key
    rw [under, ← stays] at split
    simp only [CacheEvent.given, CacheEvent.takenOut, List.map_nil, List.count_nil]
    cases old <;> simp only [Option.map, Option.toList, List.map] at split ⊢ <;> omega
  | trimToShare | trimTo | relieve | setBudget =>
    rw [h.2.values]
    simp only [CacheEvent.given, CacheEvent.takenOut, List.count_append, List.count_nil]
    omega
  | clear =>
    rw [h.2.2.values]
    simp only [CacheEvent.given, CacheEvent.takenOut, List.count_append, List.count_nil]
    omega
  | get key =>
    rw [h.1, h.2.count_eq v]
    simp only [CacheEvent.given, CacheEvent.takenOut, List.map_nil, List.count_nil]
    omega
  | peek key | contains key =>
    rw [h.1, h.2]
    simp only [CacheEvent.given, CacheEvent.takenOut, List.map_nil, List.count_nil]
    omega

/-! ## Programs that run to their end -/

section
variable {K V : Type} [BEq K] [Hashable K]

mutual

/-- A program runs from one history and store to another: each of its calls is
carried out, what it let go of is freed, and only then the program goes on. -/
inductive Runs (measure : K → V → Count) (hook : ReleaseHook K V) :
    List (CacheEvent K V) → Store K V → CacheProgram K V →
    List (CacheEvent K V) → Store K V → Prop
  | done {past s} : Runs measure hook past s .done past s
  | call {past s use next answer departed t freed u last v}
      (carried : s.perform measure use = (answer, departed, t))
      (letsGo : s.LetsGo measure use answer departed t)
      (frees : Frees measure hook (.called use answer :: past) t departed freed u)
      (runs : Runs measure hook freed u (next answer) last v) :
      Runs measure hook past s (.call use next) last v

/-- Entries are freed one after the other: the hook is called for each, and its
program runs to its end. -/
inductive Frees (measure : K → V → Count) (hook : ReleaseHook K V) :
    List (CacheEvent K V) → Store K V → List (Departure K V) →
    List (CacheEvent K V) → Store K V → Prop
  | nil {past s} : Frees measure hook past s [] past s
  | cons {past s d ds freed t last u}
      (runs : Runs measure hook (.released d s.length s.size :: past) s (hook past d) freed t)
      (frees : Frees measure hook freed t ds last u) :
      Frees measure hook past s (d :: ds) last u

end

/-- All that remains to be done is done, the innermost first. -/
def Unwinds (measure : K → V → Count) (hook : ReleaseHook K V) :
    List (CacheEvent K V) → Store K V → List (Remainder K V) →
    List (CacheEvent K V) → Store K V → Prop
  | past, s, [], last, t => past = last ∧ s = t
  | past, s, .program p :: rest, last, t => ∃ done u,
    Runs measure hook past s p done u ∧ Unwinds measure hook done u rest last t
  | past, s, .release departed :: rest, last, t => ∃ done u,
    Frees measure hook past s departed done u ∧ Unwinds measure hook done u rest last t

end

variable {K V : Type} [BEq K] [Hashable K] [EquivBEq K] [LawfulHashable K]
variable {measure : K → V → Count} {hook : ReleaseHook K V}

namespace Session

variable {s t : Session K V}

theorem advance_keeps {P : Session K V → Prop}
    (keeps : ∀ s t : Session K V, s.step measure hook = some t → P s → P t) (steps : Nat)
    (h : P s) : P (s.advance measure hook steps) := by
  induction steps generalizing s with
  | zero => exact h
  | succ steps ih =>
    rw [advance]
    cases stepped : s.step measure hook with
    | none => exact h
    | some t => exact ih (keeps s t stepped h)

theorem step_consistent (h : s.store.Consistent measure) (stepped : s.step measure hook = some t) :
    t.store.Consistent measure := by
  rcases step_store stepped with same | ⟨use, used⟩
  · rwa [same]
  · rw [used]
    exact Store.perform_consistent h use

/-- What remains to be done before a step is the step and what remains after it. -/
theorem unwinds_of_step (h : s.store.Consistent measure) (stepped : s.step measure hook = some t)
    {last : List (CacheEvent K V)} {final : Store K V}
    (later : Unwinds measure hook t.history t.store t.stack last final) :
    Unwinds measure hook s.history s.store s.stack last final := by
  obtain ⟨store, history, stack⟩ := s
  match stack with
  | [] => cases stepped
  | .program .done :: rest =>
    cases stepped
    exact ⟨_, _, .done, later⟩
  | .program (.call use next) :: rest =>
    cases stepped
    obtain ⟨freed, u, frees, done, v, runs, rest⟩ := later
    exact ⟨done, v, .call rfl (Store.perform_letsGo h use) frees runs, rest⟩
  | .release [] :: rest =>
    cases stepped
    exact ⟨_, _, .nil, later⟩
  | .release (d :: ds) :: rest =>
    cases stepped
    obtain ⟨freed, u, runs, done, v, frees, rest⟩ := later
    exact ⟨done, v, .cons runs frees, rest⟩

theorem unwinds_of_advance (h : s.store.Consistent measure) (steps : Nat)
    (ended : (s.advance measure hook steps).stack = []) :
    Unwinds measure hook s.history s.store s.stack (s.advance measure hook steps).history
      (s.advance measure hook steps).store := by
  induction steps generalizing s with
  | zero =>
    rw [advance] at ended ⊢
    rw [ended]
    exact ⟨rfl, rfl⟩
  | succ steps ih =>
    rw [advance] at ended ⊢
    cases stepped : s.step measure hook with
    | none =>
      rw [stepped] at ended
      rw [ended]
      exact ⟨rfl, rfl⟩
    | some t =>
      rw [stepped] at ended
      exact unwinds_of_step h stepped (ih (step_consistent h stepped) ended)

/-- The values put so far are in the store, or were freed, or were taken out, or
are still to be freed. -/
def Accounted (s : Session K V) : Prop :=
  (s.history.flatMap CacheEvent.given).Perm
    (s.store.kept.map (·.value) ++ s.history.flatMap CacheEvent.freed
      ++ s.history.flatMap CacheEvent.takenOut ++ s.stack.flatMap Remainder.due)

theorem step_accounted (h : s.store.Consistent measure) (stepped : s.step measure hook = some t)
    (accounted : s.Accounted) : t.Accounted := by
  classical
  obtain ⟨store, history, stack⟩ := s
  rw [Accounted, List.perm_iff_count] at accounted ⊢
  intro v
  have past := accounted v
  match stack with
  | [] => cases stepped
  | .program .done :: rest | .release [] :: rest =>
    cases stepped
    exact past
  | .program (.call use next) :: rest =>
    rw [step_call, Option.some.injEq] at stepped
    subst stepped
    have kept := (Store.perform_letsGo h use).values.count_eq v
    simp only [List.flatMap_cons, List.count_append, CacheEvent.freed, Remainder.due,
      List.count_nil] at past kept ⊢
    omega
  | .release (d :: ds) :: rest =>
    cases stepped
    simp only [List.flatMap_cons, List.count_append, List.map_cons, CacheEvent.given,
      CacheEvent.freed, CacheEvent.takenOut, Remainder.due, List.count_nil] at past ⊢
    rw [← List.singleton_append, List.count_append] at past
    omega

theorem start_accounted (budget : Count) (p : CacheProgram K V) (steps : Nat) :
    ((Session.start (.empty budget) p).advance measure hook steps).store.Consistent measure ∧
      ((Session.start (.empty budget) p).advance measure hook steps).Accounted := by
  refine advance_keeps (P := fun s => s.store.Consistent measure ∧ s.Accounted) ?_ steps ?_
  · exact fun s t stepped h => ⟨step_consistent h.1 stepped, step_accounted h.1 stepped h.2⟩
  · exact ⟨Store.empty_consistent budget, .refl _⟩

end Session

/-- **Every value leaves the cache once.** Let a session be over that started
with an empty cache, whatever its program and its hook did. Then it ran as `Runs`
says: the hook was called for exactly what each use let go of, once the use was
over, and the count a use answers is that of the entries which it evicted. Of all
values that were put, each is in the cache, or was handed to the hook, or was
taken out, and that as often as it was put. -/
theorem values_leave_once (measure : K → V → Count) (hook : ReleaseHook K V) (budget : Count)
    (p : CacheProgram K V) (steps : Nat)
    (ended : ((Session.start (.empty budget) p).advance measure hook steps).stack = []) :
    let s := (Session.start (.empty budget) p).advance measure hook steps
    Runs measure hook [] (.empty budget) p s.history s.store ∧
    (s.history.flatMap CacheEvent.given).Perm
      (s.store.entries.toList.map (·.2.value) ++ s.history.flatMap CacheEvent.freed
        ++ s.history.flatMap CacheEvent.takenOut) := by
  intro s
  obtain ⟨consistent, accounted⟩ : s.store.Consistent measure ∧ s.Accounted :=
    Session.start_accounted budget p steps
  have unwinds := Session.unwinds_of_advance
    (s := .start (.empty budget) p) (Store.empty_consistent budget) steps ended
  obtain ⟨last, final, runs, rfl, rfl⟩ := unwinds
  refine ⟨runs, ?_⟩
  rw [Session.Accounted, ended, List.flatMap_nil, List.append_nil] at accounted
  exact accounted.trans ((consistent.values_kept.symm.append_right _).append_right _)

/-- One entry has to make room and comes back through the hook, one is
overwritten, one is removed and the last is cleared. -/
theorem values_leave_once_demoting :
    let s := (Session.start (.empty 10) (.ofCalls
      [.put 1 6, .put 2 7, .put 2 5, .remove 101, .clear])).advance (fun _ v => v) demoting 40
    s.stack = [] ∧
    Runs (fun _ v => v) demoting [] (.empty 10) (.ofCalls
      [.put 1 6, .put 2 7, .put 2 5, .remove 101, .clear]) s.history s.store ∧
    (s.history.flatMap CacheEvent.given).Perm
      (s.store.entries.toList.map (·.2.value) ++ s.history.flatMap CacheEvent.freed
        ++ s.history.flatMap CacheEvent.takenOut) := by
  have ended : ((Session.start (.empty 10) (.ofCalls [.put 1 6, .put 2 7, .put 2 5, .remove 101,
      .clear])).advance (fun _ v => v) demoting 40).stack = [] := by cbv
  exact ⟨ended, values_leave_once (fun _ v => v) demoting 10 _ 40 ended⟩

end ReadAhead
