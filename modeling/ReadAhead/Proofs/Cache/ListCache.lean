import ReadAhead.Proofs.Cache.Arithmetic
import ReadAhead.Proofs.Cache.Recency

/-!
  List cache — the cache as one list, and that the two maps do the same

  The plain idea of the cache is a list of entries, the one used longest ago
  first, and a budget. `ListCache` is that idea: no numbers of last use, no
  second map, no size kept along, and natural numbers for the sums.

  What is proved:
    1. `perform_asList` — every use of a consistent store does to its list what
       the list cache does, answers the same and lets go of the same entries.
    2. `performAll_newest` — an entry of the list has the value that was put last
       under its key.
    3. `session_refines_list` — so a session that starts with an empty cache
       cannot be told from the list: not by its answers, nor by what the hook is
       called for and when, nor by what is in the cache in the end.
-/

namespace ReadAhead

open Std

/-- A cache as its entries, the one used longest ago first. -/
structure ListCache (K V : Type) where
  entries : List (Kept K V)
  budget : Count

namespace ListCache

section
variable {K V : Type} [BEq K]

def empty (budget : Count) : ListCache K V := ⟨[], budget⟩

def find? (c : ListCache K V) (key : K) : Option V :=
  (c.entries.find? (·.key == key)).map (·.value)

def without (c : ListCache K V) (key : K) : ListCache K V :=
  { c with entries := c.entries.filter fun e => !(e.key == key) }

def add (c : ListCache K V) (e : Kept K V) : ListCache K V := { c with entries := c.entries ++ [e] }

/-- Drops entries from the front while their sum exceeds a target. -/
def trim (c : ListCache K V) (target : Nat) (reason : Reason) :
    List (Departure K V) × ListCache K V :=
  ((Kept.evictTo target c.entries).1.map (Kept.leave reason),
    { c with entries := (Kept.evictTo target c.entries).2 })

def put (measure : K → V → Count) (c : ListCache K V) (key : K) (value : V) :
    List (Departure K V) × ListCache K V :=
  let size := measure key value
  let target := if c.budget < size then 0 else c.budget.toNat - size.toNat
  let (evicted, rest) := (c.without key).trim target .capacity
  (((c.find? key).map (⟨key, ·, .replaced⟩)).toList ++ evicted, rest.add ⟨key, value, size⟩)

def get (c : ListCache K V) (key : K) : Option V × ListCache K V :=
  match c.entries.find? (·.key == key) with
  | none => (none, c)
  | some e => (some e.value, (c.without key).add ⟨key, e.value, e.size⟩)

def trimToShare (c : ListCache K V) (share : Float) : List (Departure K V) × ListCache K V :=
  if share.isFinite then c.trim (Store.shareOf c.budget share).toNat .trimmed else ([], c)

/-- Carries out a use: what it answers, the entries that left in the order in
which they are to be freed, and the cache after it. -/
def perform (measure : K → V → Count) (c : ListCache K V) :
    CacheCall K V → CacheAnswer V × List (Departure K V) × ListCache K V
  | .put key value => (.done, c.put measure key value)
  | .get key => (.value (c.get key).1, [], (c.get key).2)
  | .peek key => (.value (c.find? key), [], c)
  | .contains key => (.present (c.find? key).isSome, [], c)
  | .remove key => (.value (c.find? key), [], c.without key)
  | .trimToShare share => (.evicted (c.trimToShare share).1.length, c.trimToShare share)
  | .trimTo target => (.evicted (c.trim target.toNat .trimmed).1.length, c.trim target.toNat .trimmed)
  | .relieve pressure =>
    (.evicted (c.trimToShare pressure.retainedShare).1.length, c.trimToShare pressure.retainedShare)
  | .clear => (.done, c.entries.map (Kept.leave .cleared), { c with entries := [] })
  | .setBudget budget => (.done, { c with budget := budget }.trim budget.toNat .trimmed)

def performAll (measure : K → V → Count) (c : ListCache K V) (uses : List (CacheCall K V)) :
    ListCache K V :=
  uses.foldl (fun c use => (c.perform measure use).2.2) c

/-- What happens meanwhile: each use is answered, and then what left is freed,
while the cache is as the use has made it. -/
def chronicle (measure : K → V → Count) (c : ListCache K V) :
    List (CacheCall K V) → List (CacheEvent K V)
  | [] => []
  | use :: uses =>
    let (answer, departed, next) := c.perform measure use
    .called use answer
      :: departed.map (.released · next.entries.length (UInt64.ofNat (Kept.total next.entries)))
      ++ next.chronicle measure uses

end

end ListCache

/-! ## The value put last -/

/-- The value that a use puts under a key. -/
def CacheCall.putUnder {K V : Type} [BEq K] (key : K) : CacheCall K V → Option V
  | .put k value => if k == key then some value else none
  | _ => none

/-- The value put last under a key. -/
def newest {K V : Type} [BEq K] (uses : List (CacheCall K V)) (key : K) : Option V :=
  (uses.filterMap (CacheCall.putUnder key)).getLast?

theorem newest_concat {K V : Type} [BEq K] (past : List (CacheCall K V)) (use : CacheCall K V)
    (key : K) : newest (past ++ [use]) key = (use.putUnder key).or (newest past key) := by
  rw [newest, List.filterMap_append, List.getLast?_append]
  congr 1
  rw [List.filterMap_cons]
  split <;> rename_i found <;> rw [found] <;> rfl

namespace ListCache

set_option linter.unusedSectionVars false

variable {K V : Type} [BEq K] {measure : K → V → Count} {c : ListCache K V}

/-- Every entry has the value put last under its key. -/
def Current (past : List (CacheCall K V)) (c : ListCache K V) : Prop :=
  ∀ e ∈ c.entries, newest past e.key = some e.value

theorem Current.fewer {past : List (CacheCall K V)} (h : c.Current past) {use : CacheCall K V}
    (nothing : ∀ key, use.putUnder key = none) {next : ListCache K V}
    (fewer : next.entries ⊆ c.entries) : next.Current (past ++ [use]) := by
  intro e he
  rw [newest_concat, nothing e.key]
  exact h e (fewer he)

theorem trim_subset (target : Nat) (reason : Reason) :
    (c.trim target reason).2.entries ⊆ c.entries :=
  fun _ he => Kept.evictTo_append target c.entries ▸ List.mem_append_right _ he

theorem trimToShare_subset (share : Float) : (c.trimToShare share).2.entries ⊆ c.entries := by
  unfold trimToShare
  split
  · exact trim_subset _ _
  · exact List.Subset.refl _

variable [EquivBEq K]

theorem newest_congr {k key : K} (same : (k == key) = true) (uses : List (CacheCall K V)) :
    newest uses k = newest uses key := by
  have alike : CacheCall.putUnder (V := V) k = CacheCall.putUnder key := by
    funext use
    cases use <;> simp only [CacheCall.putUnder, BEq.congr_right same]
  rw [newest, newest, alike]

theorem put_current {past : List (CacheCall K V)} (h : c.Current past) (key : K) (value : V) :
    (c.put measure key value).2.Current (past ++ [.put key value]) := by
  intro e he
  rcases List.mem_append.mp he with he | he
  · -- an entry that stays has another key
    obtain ⟨stays, other⟩ := List.mem_filter.mp (trim_subset _ .capacity he)
    have apart : ¬ (key == e.key) = true := by
      intro same
      rw [BEq.symm same] at other
      cases other
    rw [newest_concat, CacheCall.putUnder, if_neg apart]
    exact h e stays
  · rw [List.mem_singleton.mp he, newest_concat, CacheCall.putUnder, if_pos BEq.rfl]
    rfl

theorem get_current {past : List (CacheCall K V)} (h : c.Current past) (key : K) :
    (c.get key).2.Current (past ++ [.get key]) := by
  have unchanged : c.Current (past ++ [.get key]) := h.fewer (fun _ => rfl) (List.Subset.refl _)
  rw [get]
  split
  · exact unchanged
  · next e found =>
    intro e' he'
    rcases List.mem_append.mp he' with he' | he'
    · exact unchanged e' (List.mem_of_mem_filter he')
    · have same : (e.key == key) = true := by simpa using List.find?_some found
      rw [List.mem_singleton.mp he', ← newest_congr same]
      exact unchanged e (List.mem_of_find?_eq_some found)

theorem perform_current {past : List (CacheCall K V)} (h : c.Current past)
    (use : CacheCall K V) : (c.perform measure use).2.2.Current (past ++ [use]) := by
  cases use with
  | put key value => exact put_current h key value
  | get key => exact get_current h key
  | peek | contains => exact h.fewer (fun _ => rfl) (List.Subset.refl _)
  | remove key => exact h.fewer (fun _ => rfl) fun _ he => List.mem_of_mem_filter he
  | trimToShare share => exact h.fewer (fun _ => rfl) (trimToShare_subset share)
  | trimTo target => exact h.fewer (fun _ => rfl) (trim_subset _ _)
  | relieve pressure => exact h.fewer (fun _ => rfl) (trimToShare_subset _)
  | clear => exact h.fewer (fun _ => rfl) (List.nil_subset _)
  | setBudget budget =>
    exact h.fewer (fun _ => rfl) (trim_subset (c := { c with budget := budget }) _ _)

/-- **What is found under a key is what was put last under it.** -/
theorem performAll_newest {past : List (CacheCall K V)} (h : c.Current past)
    (uses : List (CacheCall K V)) : (c.performAll measure uses).Current (past ++ uses) := by
  induction uses generalizing past c with
  | nil => rwa [List.append_nil]
  | cons use uses ih =>
    rw [List.append_cons]
    exact ih (perform_current h use)

end ListCache

/-! ## One use -/

namespace Store

section
variable {K V : Type} [BEq K] [Hashable K]

def asList (s : Store K V) : ListCache K V := ⟨s.kept, s.budget⟩

end

set_option linter.unusedSectionVars false

variable {K V : Type} [BEq K] [Hashable K] [EquivBEq K] [LawfulHashable K]
variable {measure : K → V → Count} {s : Store K V}

theorem shrink_asList (h : s.Consistent measure) (target : Count) (reason : Reason) :
    s.asList.trim target.toNat reason
      = ((s.shrink target reason).1, (s.shrink target reason).2.asList) := by
  obtain ⟨left, stays⟩ := shrink_kept h target reason
  rw [ListCache.trim, asList, asList, left, stays, shrink_budget]

theorem trimToShare_asList (h : s.Consistent measure) (share : Float) :
    s.asList.trimToShare share = ((s.trimToShare share).1, (s.trimToShare share).2.asList) := by
  unfold ListCache.trimToShare trimToShare
  split
  · exact shrink_asList h _ _
  · rfl

theorem extract_asList (h : s.Consistent measure) (key : K) :
    (s.extract key).1 = s.asList.find? key ∧ (s.extract key).2.asList = s.asList.without key := by
  constructor
  · rw [ListCache.find?, asList, ← h.find?_kept, extract_answer]
  · rw [asList, kept_extract h, (extract_frame s key).1]
    rfl

theorem put_asList (h : s.Consistent measure) (key : K) (value : V) :
    s.asList.put measure key value
      = ((s.put measure key value).1, (s.put measure key value).2.asList) := by
  obtain ⟨left, stays⟩ := put_kept h key value
  have budget : (s.put measure key value).2.budget = s.budget := by
    rw [put_store]
    exact (shrink_budget _ _).trans (extract_frame { s with puts := s.puts + 1 } key).1
  rw [asList, asList, left, stays, budget, toNat_roomFor, h.find?_kept]
  rfl

theorem get_asList (h : s.Consistent measure) (key : K) :
    s.asList.get key = ((s.get key).1, (s.get key).2.asList) := by
  have answer : (s.get key).1 = (s.kept.find? (·.key == key)).map (·.value) := by
    rw [get_answer, h.find?_kept]
  have budget : (s.get key).2.budget = s.budget := by
    rw [get]
    split
    · rfl
    · simp only [markUsed]
      split <;> rfl
  rw [ListCache.get, asList, asList, answer, budget, get_kept h]
  split <;> rename_i found <;> rw [found] <;> rfl

/-- **Every use of a consistent store is that use of its list.** -/
theorem perform_asList (h : s.Consistent measure) (use : CacheCall K V) :
    s.asList.perform measure use = ((s.perform measure use).1, (s.perform measure use).2.1,
      (s.perform measure use).2.2.asList) := by
  cases use with
  | put key value => exact congrArg (Prod.mk _) (put_asList h key value)
  | get key =>
    rw [ListCache.perform, get_asList h]
    rfl
  | peek key =>
    rw [ListCache.perform, perform, h.find?_kept]
    rfl
  | contains key =>
    rw [ListCache.perform, perform, contains_answer, h.find?_kept]
    rfl
  | remove key =>
    rw [ListCache.perform, perform, ← (extract_asList h key).1, ← (extract_asList h key).2]
  | trimToShare share =>
    rw [ListCache.perform, trimToShare_asList h]
    rfl
  | trimTo target =>
    rw [ListCache.perform, shrink_asList h]
    rfl
  | relieve pressure =>
    rw [ListCache.perform, trimToShare_asList h]
    rfl
  | clear =>
    rw [ListCache.perform, perform, asList, ← (kept_clear s).1]
    rfl
  | setBudget budget =>
    have changed : ({ s with budget := budget } : Store K V).Consistent measure :=
      h.congr .rfl rfl rfl rfl
    exact congrArg (Prod.mk _) (shrink_asList changed budget .trimmed)

end Store

/-! ## Sessions -/

set_option linter.unusedSectionVars false

variable {K V : Type} [BEq K] [Hashable K] [EquivBEq K] [LawfulHashable K]
variable {measure : K → V → Count}

namespace Session

variable {hook : ReleaseHook K V} {s t u : Session K V}

/-- A session comes to another in some number of steps. -/
def Reaches (measure : K → V → Count) (hook : ReleaseHook K V) (s t : Session K V) : Prop :=
  ∃ steps, s.advance measure hook steps = t

theorem Reaches.of_step (h : s.step measure hook = some t) (later : t.Reaches measure hook u) :
    s.Reaches measure hook u := by
  obtain ⟨steps, rfl⟩ := later
  exact ⟨steps + 1, by rw [advance, h]⟩

theorem reaches_of_released {store : Store K V} {history : List (CacheEvent K V)}
    {rest : List (Remainder K V)} (departed : List (Departure K V))
    (later : Reaches measure .quiet
      ⟨store, (departed.map (.released · store.length store.size)).reverse ++ history, rest⟩ u) :
    Reaches measure .quiet ⟨store, history, .release departed :: rest⟩ u := by
  induction departed generalizing history with
  | nil => exact later.of_step rfl
  | cons d ds ih =>
    rw [List.map_cons, List.reverse_cons, List.append_assoc] at later
    -- the call of the hook, and the end of its program
    exact Reaches.of_step rfl (Reaches.of_step rfl (ih later))

/-- With a hook that only frees, a list of uses is carried out as by the list
cache. -/
theorem reaches_performAll {store : Store K V} (h : store.Consistent measure)
    (history : List (CacheEvent K V)) (uses : List (CacheCall K V)) :
    ∃ last : Store K V, last.Consistent measure ∧
      last.asList = store.asList.performAll measure uses ∧
      Reaches measure .quiet ⟨store, history, [.program (.ofCalls uses)]⟩
        ⟨last, (store.asList.chronicle measure uses).reverse ++ history, []⟩ := by
  induction uses generalizing store history with
  | nil => exact ⟨store, h, rfl, Reaches.of_step rfl ⟨0, rfl⟩⟩
  | cons use uses ih =>
    have kept := Store.perform_consistent h use
    have same := Store.perform_asList h use
    have called : Session.step measure .quiet ⟨store, history, [.program (.ofCalls (use :: uses))]⟩
        = _ := step_call store history use (fun _ => .ofCalls uses) []
    generalize store.perform measure use = outcome at kept same called
    obtain ⟨answer, departed, next⟩ := outcome
    obtain ⟨total, length⟩ := kept.total_kept
    have told : store.asList.chronicle measure (use :: uses)
        = .called use answer :: departed.map (.released · next.length next.size)
          ++ next.asList.chronicle measure uses := by
      rw [ListCache.chronicle, same]
      simp only [Store.asList, total, length, UInt64.ofNat_toNat]
    obtain ⟨last, consistent, list, later⟩ := ih kept
      ((departed.map (.released · next.length next.size)).reverse ++ .called use answer :: history)
    refine ⟨last, consistent, ?_, Reaches.of_step called (reaches_of_released _ ?_)⟩
    · rw [list, ListCache.performAll, ListCache.performAll, List.foldl_cons, same]
    · rw [told, List.cons_append, List.reverse_cons, List.reverse_append]
      simpa only [List.append_assoc, List.cons_append, List.nil_append] using later

end Session

/-- **Two maps are as good as one list.** Any uses of an empty cache, with a hook
that only frees, come to their end. By then the same has happened as with the
list cache: the same answers, the same entries freed in the same order, the same
length and size at each of these moments. The cache has the same keys in the same
order, the same values, which are the ones put last, and the same size and
length. -/
theorem session_refines_list (measure : K → V → Count) (budget : Count)
    (uses : List (CacheCall K V)) :
    ∃ steps,
      let s := (Session.start (.empty budget) (.ofCalls uses)).advance measure .quiet steps
      let c := (ListCache.empty budget).performAll measure uses
      s.stack = [] ∧
      s.history.reverse = (ListCache.empty budget).chronicle measure uses ∧
      s.store.keysOldestFirst = c.entries.map (·.key) ∧
      (∀ key, s.store.find? key = c.find? key) ∧
      (∀ key value, s.store.find? key = some value → newest uses key = some value) ∧
      s.store.size.toNat = Kept.total c.entries ∧
      s.store.length = c.entries.length := by
  have empty : (Store.empty budget : Store K V).Consistent measure := Store.empty_consistent budget
  obtain ⟨last, consistent, list, steps, reached⟩ := Session.reaches_performAll empty [] uses
  refine ⟨steps, ?_⟩
  have fresh : (ListCache.empty budget : ListCache K V).Current [] :=
    fun _ he => absurd he List.not_mem_nil
  have current : last.asList.Current uses := by
    rw [list]
    exact ListCache.performAll_newest fresh uses
  have entries : ((ListCache.empty budget).performAll measure uses).entries = last.kept :=
    (congrArg ListCache.entries list).symm
  rw [Session.start, reached]
  refine ⟨rfl, ?_, ?_, ?_, ?_, ?_, ?_⟩
  · rw [List.append_nil, List.reverse_reverse]
    rfl
  · rw [consistent.keysOldestFirst_kept, entries]
  · intro key
    rw [consistent.find?_kept, ListCache.find?, entries]
  · intro key value found
    rw [consistent.find?_kept, Option.map_eq_some_iff] at found
    obtain ⟨e, found, rfl⟩ := found
    have same : (e.key == key) = true := by simpa using List.find?_some found
    rw [← ListCache.newest_congr same]
    exact current e (List.mem_of_find?_eq_some found)
  · rw [entries, consistent.total_kept.1]
  · rw [entries, consistent.total_kept.2]

/-- With values of their own size in a budget of ten: an entry of no size, one
that is looked up, one that is overwritten, and one that nothing fits beside. -/
theorem session_refines_list_crowded :
    let uses : List (CacheCall Nat Count) :=
      [.put 1 4, .put 2 0, .get 1, .put 3 6, .put 1 3, .put 4 20, .get 2]
    ∃ steps,
      let s := (Session.start (.empty 10) (.ofCalls uses)).advance (fun _ v => v) .quiet steps
      s.stack = [] ∧
      s.history.reverse =
        [.called (.put 1 4) .done, .called (.put 2 0) .done, .called (.get 1) (.value (some 4)),
          .called (.put 3 6) .done, .called (.put 1 3) .done, .released ⟨1, 4, .replaced⟩ 3 9,
          .called (.put 4 20) .done, .released ⟨2, 0, .capacity⟩ 1 20,
          .released ⟨3, 6, .capacity⟩ 1 20, .released ⟨1, 3, .capacity⟩ 1 20,
          .called (.get 2) (.value none)] ∧
      s.store.keysOldestFirst = [4] ∧
      (∀ key, s.store.find? key = ((ListCache.empty 10).performAll (fun _ v => v) uses).find? key) ∧
      (∀ key value, s.store.find? key = some value → newest uses key = some value) ∧
      s.store.size.toNat = 20 ∧
      s.store.length = 1 :=
  session_refines_list (fun _ v => v) 10 _

end ReadAhead
