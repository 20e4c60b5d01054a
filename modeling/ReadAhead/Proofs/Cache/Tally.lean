import ReadAhead.Proofs.Cache.Release

/-!
  Tally — what the cache has counted agrees with what has happened

  Two of the functions by which an entry leaves are the only ones that count it, and
  none of them knows who called it. What is counted in one place is told here by what
  has happened: by the uses and their answers, and by the entries that left and their
  reasons.

  An entry has left as soon as the use is over that let go of it, though the hook may
  be called for it much later, or never if it breaks down. So the entries that left
  are kept beside the uses, and a session adds to this only where they are: those that
  the hook was called for are in its history, and all others are still on its stack.

  What is proved:
    1. `shrink_evictions`, `perform_evictions` — a use counts the entries that it
       evicts, and no others.
    2. `perform_served` — it counts itself, if it is a put or a look-up.
    3. `Tallied.perform` — so it keeps the figures in step with what has happened.
    4. `statistics_tally` — the figures agree with every list of uses, and with every
       session, whatever its hook does.
    5. `statistics_tally_demoting` (anti-vacuity) — a session in which the hook puts
       back what is evicted.
-/

namespace ReadAhead

set_option linter.unusedSectionVars false

/-! ## What is counted -/

/-- Whether entries that leave for a reason count as evicted. -/
def Reason.evicts : Reason → Bool
  | .capacity | .trimmed => true
  | .replaced | .cleared => false

namespace CacheEvent

variable {K V : Type}

def wasPut : CacheEvent K V → Bool
  | .called (.put ..) _ => true
  | _ => false

def wasHit : CacheEvent K V → Bool
  | .called (.get _) (.value found) => found.isSome
  | _ => false

def wasMiss : CacheEvent K V → Bool
  | .called (.get _) (.value found) => found.isNone
  | _ => false

def tookOut : CacheEvent K V → Bool
  | .called (.remove _) (.value found) => found.isSome
  | _ => false

theorem countP_cons (p : CacheEvent K V → Bool) (event : CacheEvent K V)
    (events : List (CacheEvent K V)) :
    (event :: events).countP p = events.countP p + (p event).toNat := by
  rw [List.countP_cons]
  cases p event <;> rfl

end CacheEvent

/-- The figures of a cache agree with what has happened to it, and with the entries
that left. -/
structure CacheStatistics.Tallied {K V : Type} (figures : CacheStatistics)
    (events : List (CacheEvent K V)) (left : List (Departure K V)) : Prop where
  puts : figures.puts = events.countP (·.wasPut)
  hits : figures.hits = events.countP (·.wasHit)
  misses : figures.misses = events.countP (·.wasMiss)
  evictions : figures.evictions = left.countP (·.reason.evicts)
  entries : (figures.entries : Int) = figures.puts - figures.evictions
    - left.countP (·.reason = .replaced) - left.countP (·.reason = .cleared)
    - events.countP (·.tookOut)

theorem Departure.length_eq {K V : Type} (left : List (Departure K V)) :
    left.length = left.countP (·.reason.evicts) + left.countP (·.reason = .replaced)
      + left.countP (·.reason = .cleared) := by
  induction left with
  | nil => rfl
  | cons d left ih =>
    rw [List.length_cons, List.countP_cons, List.countP_cons, List.countP_cons, ih]
    cases d.reason <;> simp [Reason.evicts] <;> omega

namespace Store

/-- How often something was put, found and not found. -/
def served {K V : Type} [BEq K] [Hashable K] (s : Store K V) : Nat × Nat × Nat :=
  (s.puts, s.hits, s.misses)

variable {K V : Type} [BEq K] [Hashable K] [EquivBEq K] [LawfulHashable K]

/-! ## Evictions -/

theorem extract_counts (s : Store K V) (key : K) :
    (s.extract key).2.served = s.served ∧ (s.extract key).2.evictions = s.evictions := by
  unfold extract
  split <;> exact ⟨rfl, rfl⟩

theorem dropOldest_served (s : Store K V) : s.dropOldest.2.served = s.served := by
  unfold dropOldest
  split
  · rfl
  · dsimp only
    split <;> rfl

theorem shrink_served (s : Store K V) (target : Count) (reason : Reason) :
    (s.shrink target reason).2.served = s.served :=
  shrink_induction (P := fun t => t.served = s.served)
    (fun t same => (dropOldest_served t).trans same) target reason rfl

theorem dropOldest_evictions (s : Store K V) :
    s.dropOldest.2.evictions = s.evictions + s.dropOldest.1.toList.length := by
  unfold dropOldest
  split
  · rfl
  · dsimp only
    split <;> rfl

/-- **Shrinking counts the entries that leave**, and they leave for the reason given. -/
theorem shrink_evictions (s : Store K V) (target : Count) (reason : Reason) :
    (s.shrink target reason).2.evictions = s.evictions + (s.shrink target reason).1.length ∧
      ∀ d ∈ (s.shrink target reason).1, d.reason = reason := by
  have rounds (n : Nat) : ∀ t : Store K V,
      (shrinkRounds target reason n t).2.evictions
          = t.evictions + (shrinkRounds target reason n t).1.length ∧
        ∀ d ∈ (shrinkRounds target reason n t).1, d.reason = reason := by
    induction n with
    | zero => exact fun t => ⟨rfl, fun _ hd => absurd hd List.not_mem_nil⟩
    | succ n ih =>
      intro t
      have counted := dropOldest_evictions t
      rw [shrinkRounds]
      split
      · split
        · next hd =>
          rw [hd] at counted
          exact ⟨counted, fun _ hd => absurd hd List.not_mem_nil⟩
        · next key value t' hd =>
          rw [hd] at counted
          obtain ⟨rest, reasons⟩ := ih t'
          refine ⟨?_, List.forall_mem_cons.mpr ⟨rfl, reasons⟩⟩
          rw [rest, counted, List.length_cons, Option.toList_some, List.length_singleton]
          omega
      · exact ⟨rfl, fun _ hd => absurd hd List.not_mem_nil⟩
  exact rounds _ s

theorem shrink_countP (s : Store K V) (target : Count) {reason : Reason}
    (evicts : reason.evicts = true) :
    (s.shrink target reason).2.evictions
      = s.evictions + (s.shrink target reason).1.countP (·.reason.evicts) := by
  obtain ⟨counted, reasons⟩ := s.shrink_evictions target reason
  have all : (s.shrink target reason).1.countP (·.reason.evicts)
      = (s.shrink target reason).1.length :=
    List.countP_eq_length.mpr fun d hd => (congrArg Reason.evicts (reasons d hd)).trans evicts
  rw [counted, all]

theorem trimToShare_counts (s : Store K V) (share : Float) :
    (s.trimToShare share).2.served = s.served ∧
      (s.trimToShare share).2.evictions
        = s.evictions + (s.trimToShare share).1.countP (·.reason.evicts) := by
  unfold trimToShare
  split
  · exact ⟨s.shrink_served _ _, s.shrink_countP _ rfl⟩
  · exact ⟨rfl, rfl⟩

theorem get_evictions (s : Store K V) (key : K) : (s.get key).2.evictions = s.evictions := by
  unfold get
  split
  · rfl
  · unfold markUsed
    dsimp only
    split <;> rfl

theorem put_evictions (measure : K → V → Count) (s : Store K V) (key : K) (value : V) :
    (s.put measure key value).2.evictions
      = s.evictions + (s.put measure key value).1.countP (·.reason.evicts) := by
  have out := (extract_counts { s with puts := s.puts + 1 } key).2
  have old (found : Option V) : (found.map fun v => (⟨key, v, .replaced⟩ : Departure K V)).toList.countP
      (·.reason.evicts) = 0 := by
    cases found <;> rfl
  unfold put
  dsimp only
  rw [List.countP_append, old, Nat.zero_add]
  exact (shrink_countP _ _ rfl).trans (congrArg (· + _) out)

theorem clear_countP (s : Store K V) : s.clear.1.countP (·.reason.evicts) = 0 := by
  rw [List.countP_eq_zero]
  intro d hd
  obtain ⟨key, _, found⟩ := List.mem_filterMap.mp hd
  obtain ⟨entry, _, rfl⟩ := Option.map_eq_some_iff.mp found
  exact Bool.false_ne_true

/-- **A use counts the entries that it evicts**, and no others. -/
theorem perform_evictions (measure : K → V → Count) (s : Store K V) (use : CacheCall K V) :
    (s.perform measure use).2.2.evictions
      = s.evictions + (s.perform measure use).2.1.countP (·.reason.evicts) := by
  cases use with
  | put key value => exact put_evictions measure s key value
  | get key => exact get_evictions s key
  | peek | contains => rfl
  | remove key => exact (extract_counts s key).2
  | trimToShare share => exact (trimToShare_counts s share).2
  | trimTo target => exact shrink_countP s target rfl
  | relieve pressure => exact (trimToShare_counts s _).2
  | clear =>
    show s.evictions = s.evictions + s.clear.1.countP _
    rw [clear_countP]
    rfl
  | setBudget budget => exact shrink_countP { s with budget := budget } budget rfl

/-! ## Puts and look-ups -/

theorem get_served (s : Store K V) (key : K) :
    (s.get key).2.served = (s.puts, s.hits + (s.get key).1.isSome.toNat,
      s.misses + (s.get key).1.isNone.toNat) := by
  unfold get
  split
  · rfl
  · unfold markUsed
    dsimp only
    split <;> rfl

/-- **A use counts itself**, if it is a put or a look-up. -/
theorem perform_served (measure : K → V → Count) (s : Store K V) (use : CacheCall K V) :
    let event : CacheEvent K V := .called use (s.perform measure use).1
    (s.perform measure use).2.2.served = (s.puts + event.wasPut.toNat,
      s.hits + event.wasHit.toNat, s.misses + event.wasMiss.toNat) := by
  cases use with
  | put key value =>
    have out := (extract_counts { s with puts := s.puts + 1 } key).1
    exact (shrink_served _ _ _).trans out
  | get key => exact get_served s key
  | peek | contains | clear => rfl
  | remove key => exact (extract_counts s key).1
  | trimToShare share => exact (trimToShare_counts s share).1
  | trimTo target => exact s.shrink_served target .trimmed
  | relieve pressure => exact (trimToShare_counts s _).1
  | setBudget budget => exact shrink_served { s with budget := budget } budget .trimmed

/-! ## Entries -/

variable {measure : K → V → Count} {s : Store K V}

/-- Every entry stays, or leaves, or is taken out; and what is put is an entry. -/
theorem perform_length (h : s.Consistent measure) (use : CacheCall K V) :
    let event : CacheEvent K V := .called use (s.perform measure use).1
    (s.perform measure use).2.2.length + (s.perform measure use).2.1.length + event.tookOut.toNat
      = s.length + event.wasPut.toNat := by
  intro event
  have given : event.given.length = event.wasPut.toNat := by
    cases use <;> rfl
  have takenOut : event.takenOut.length = event.tookOut.toNat := by
    cases use with
    | remove key =>
      show (s.extract key).1.toList.length = (s.extract key).1.isSome.toNat
      cases (s.extract key).1 <;> rfl
    | _ => rfl
  have values := (perform_letsGo h use).values.length_eq
  rw [List.length_append, List.length_append, List.length_append, List.length_map, List.length_map,
    List.length_map, h.total_kept.2, (perform_consistent h use).total_kept.2] at values
  change event.given.length + _ = _ + event.takenOut.length at values
  rw [given, takenOut] at values
  omega

end Store

namespace CacheStatistics

variable {K V : Type} {figures : CacheStatistics} {events : List (CacheEvent K V)}
  {left : List (Departure K V)}

theorem Tallied.perm (h : figures.Tallied events left) {left' : List (Departure K V)}
    (same : left.Perm left') : figures.Tallied events left' where
  puts := h.puts
  hits := h.hits
  misses := h.misses
  evictions := h.evictions.trans (same.countP_eq _)
  entries := by
    rw [h.entries, same.countP_eq, same.countP_eq]

theorem Tallied.released (h : figures.Tallied events left) (d : Departure K V) (length : Nat)
    (size : Count) : figures.Tallied (.released d length size :: events) left :=
  ⟨h.puts, h.hits, h.misses, h.evictions, h.entries⟩

variable [BEq K] [Hashable K] [EquivBEq K] [LawfulHashable K]
variable {measure : K → V → Count} {s : Store K V}

theorem tallied_empty (budget : Count) :
    (Store.empty budget : Store K V).statistics.Tallied ([] : List (CacheEvent K V)) [] :=
  ⟨rfl, rfl, rfl, rfl, rfl⟩

/-- **A use keeps the figures in step with what has happened.** -/
theorem Tallied.perform (h : s.Consistent measure) (tallied : s.statistics.Tallied events left)
    (use : CacheCall K V) :
    (s.perform measure use).2.2.statistics.Tallied
      (.called use (s.perform measure use).1 :: events) ((s.perform measure use).2.1 ++ left) := by
  obtain ⟨puts, served⟩ := Prod.mk.inj (Store.perform_served measure s use)
  obtain ⟨hits, misses⟩ := Prod.mk.inj served
  have evictions := Store.perform_evictions measure s use
  have length := Store.perform_length h use
  have reasons := Departure.length_eq (s.perform measure use).2.1
  have past : s.puts = events.countP (·.wasPut) := tallied.puts
  have found : s.hits = events.countP (·.wasHit) := tallied.hits
  have missed : s.misses = events.countP (·.wasMiss) := tallied.misses
  have gone : s.evictions = left.countP (·.reason.evicts) := tallied.evictions
  have balance : (s.length : Int) = s.puts - s.evictions - left.countP (·.reason = .replaced)
    - left.countP (·.reason = .cleared) - events.countP (·.tookOut) := tallied.entries
  constructor <;> simp only [Store.statistics, CacheEvent.countP_cons, List.countP_append]
  · rw [puts, past]
  · rw [hits, found]
  · rw [misses, missed]
  · rw [evictions, gone, Nat.add_comm]
  · rw [evictions, puts]
    push_cast
    omega

end CacheStatistics

/-! ## Uses in any order, and sessions -/

/-- A cache, and what was done with it: the uses with their answers, the latest first,
and the entries that left. -/
structure Ledger (K V : Type) [BEq K] [Hashable K] where
  store : Store K V
  events : List (CacheEvent K V)
  left : List (Departure K V)

namespace Ledger

variable {K V : Type} [BEq K] [Hashable K]

def start (budget : Count) : Ledger K V := ⟨.empty budget, [], []⟩

/-- Carries out a use, and writes down what it answered and what left. -/
def enter (measure : K → V → Count) (l : Ledger K V) (use : CacheCall K V) : Ledger K V :=
  let (answer, departed, store) := l.store.perform measure use
  ⟨store, .called use answer :: l.events, departed ++ l.left⟩

theorem enter_tallied [EquivBEq K] [LawfulHashable K] {measure : K → V → Count}
    {l : Ledger K V} (uses : List (CacheCall K V)) (h : l.store.Consistent measure)
    (tallied : l.store.statistics.Tallied l.events l.left) :
    let last := uses.foldl (enter measure) l
    last.store.statistics.Tallied last.events last.left := by
  induction uses generalizing l with
  | nil => exact tallied
  | cons use uses ih => exact ih (Store.perform_consistent h use) (tallied.perform h use)

end Ledger

def CacheEvent.released? {K V : Type} : CacheEvent K V → Option (Departure K V)
  | .called .. => none
  | .released d _ _ => some d

def Remainder.departed {K V : Type} : Remainder K V → List (Departure K V)
  | .program _ => []
  | .release departed => departed

namespace Session

/-- The entries that left the cache: those that the hook was called for, and those that
it is still to be called for. -/
def left {K V : Type} [BEq K] [Hashable K] (s : Session K V) : List (Departure K V) :=
  s.history.filterMap CacheEvent.released? ++ s.stack.flatMap Remainder.departed

variable {K V : Type} [BEq K] [Hashable K] [EquivBEq K] [LawfulHashable K]
variable {measure : K → V → Count} {hook : ReleaseHook K V} {s t : Session K V}

theorem step_tallied (h : s.store.Consistent measure) (stepped : s.step measure hook = some t)
    (tallied : s.store.statistics.Tallied s.history s.left) :
    t.store.statistics.Tallied t.history t.left := by
  obtain ⟨store, history, stack⟩ := s
  match stack with
  | [] => cases stepped
  | .program .done :: rest | .release [] :: rest =>
    cases stepped
    exact tallied
  | .program (.call use next) :: rest =>
    rw [step_call, Option.some.injEq] at stepped
    subst stepped
    refine (tallied.perform h use).perm ?_
    exact List.perm_append_comm_assoc _ _ _
  | .release (d :: ds) :: rest =>
    cases stepped
    -- from the stack to the history
    refine (tallied.released d _ _).perm ?_
    exact List.perm_middle

end Session

variable {K V : Type} [BEq K] [Hashable K] [EquivBEq K] [LawfulHashable K]

/-- **The figures agree with what has happened.** Let a cache start empty. Whatever
uses are made of it, by whom and in which order, the figures are those of the uses, of
their answers and of the entries that left: the puts are the calls of `put`, the hits
and the misses the calls of `get` that found an entry and that found none, and the
evictions the entries that left to make room or because the cache was to shrink; and
the entries are what was put, less what was evicted, overwritten, cleared and removed.
The same holds at every moment of a session, whatever its program and its hook do. -/
theorem statistics_tally (measure : K → V → Count) (budget : Count) :
    (∀ uses : List (CacheCall K V),
      let l := uses.foldl (Ledger.enter measure) (.start budget)
      l.store.statistics.Tallied l.events l.left) ∧
    ∀ (hook : ReleaseHook K V) (p : CacheProgram K V) (steps : Nat),
      let s := (Session.start (.empty budget) p).advance measure hook steps
      s.store.statistics.Tallied s.history s.left := by
  have empty : (Store.empty budget : Store K V).Consistent measure := Store.empty_consistent budget
  have none_yet := CacheStatistics.tallied_empty (K := K) (V := V) budget
  refine ⟨fun uses => Ledger.enter_tallied (l := .start budget) uses empty none_yet, ?_⟩
  intro hook p steps
  exact (Session.advance_keeps
    (P := fun s => s.store.Consistent measure ∧ s.store.statistics.Tallied s.history s.left)
    (fun s t stepped both =>
      ⟨Session.step_consistent both.1 stepped, Session.step_tallied both.1 stepped both.2⟩)
    steps ⟨empty, none_yet⟩).2

/-- **Not vacuous**: one entry has to make room and comes back through the hook, one is
overwritten, one is looked up and removed, another is not found, and the last is
cleared. -/
theorem statistics_tally_demoting :
    let s := (Session.start (.empty 10) (.ofCalls [.put 1 6, .put 2 7, .put 2 5, .get 101, .get 1,
      .remove 101, .clear])).advance (fun _ v => v) demoting 40
    s.store.statistics.Tallied s.history s.left ∧ s.left.length = 3 ∧
    s.store.statistics
      = { entries := 0, size := 0, budget := 10, hits := 1, misses := 1, evictions := 1, puts := 4 } :=
  ⟨(statistics_tally (fun _ v => v) 10).2 demoting _ 40, by cbv, by cbv⟩

end ReadAhead
