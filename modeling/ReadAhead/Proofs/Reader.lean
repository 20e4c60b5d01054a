import ReadAhead.Proofs.Cache.Budget
import ReadAhead.Proofs.Queue.Cancel
import ReadAhead.Proofs.Queue.Late
import ReadAhead.Proofs.Queue.Settlement
import ReadAhead.Reader

/-!
  Runs of a reader — what planner, queue and cache come to together

  Between two renderings nothing runs: the queue is paused, and its worker holds no task.
  So what was submitted since the last rendering either waits, or was cancelled, on entry
  or when background work was switched off. Rendering lets the worker go through what
  waits, by urgency, and the bitmaps enter the cache in this order.

  What is proved:
    1. `Sound.submit`, `Sound.sync`, `Sound.render` — each part of a reader keeps this.
    2. `Sound.rendered`, `Sound.answers` — what rendering leaves of the queue and the cache,
       and what it answers.
    3. `Sound.apply`, `run_sound` — the above holds after everything that can happen to a
       reader.
    4. `render_answers` — in every run, rendering answers each page that was submitted
       since the last rendering, with what the renderer makes of it, or with the
       cancellation that came before; afterwards nothing waits or runs.
-/

namespace ReadAhead.Reader

def measure : PageKey → Bitmap → Count := fun _ b => b.byteCount

def pageOf (r : Reader) (id : TaskNumber) : Count := (r.pages.lookup id).getD 0

def workEnd (renderer : Renderer) (page : Count) : WorkEnd Count :=
  .ofResult <| match renderer page with
    | .value _ => .value page
    | .error reasons => .error reasons
    | .crash text => .crash text

/-- What a task comes to that renders a page. -/
def answer (renderer : Renderer) (page : Count) : TaskAnswer Count :=
  match renderer page with
  | .value _ => .ok page
  | .error reasons => .error (.failed reasons)
  | .crash text => .error (.crashed text)

/-- The cache after a page was rendered. -/
def keep (width : UInt32) (renderer : Renderer) (cache : Store PageKey Bitmap) (page : Count) :
    Store PageKey Bitmap :=
  match renderer page with
  | .value bitmap => (cache.put measure (.wholePage page width) bitmap).2
  | .error _ | .crash _ => cache

theorem work_eq (r : Reader) (renderer : Renderer) (id : TaskNumber)
    (cache : Store PageKey Bitmap) :
    r.work renderer id false cache
      = some (workEnd renderer (r.pageOf id), keep r.width renderer cache (r.pageOf id)) := by
  unfold work workEnd keep pageOf
  cases made : renderer ((r.pages.lookup id).getD 0) <;> simp only [made] <;> rfl

theorem toTaskAnswer_workEnd (renderer : Renderer) (page : Count) :
    (workEnd renderer page).toTaskAnswer (workEnd renderer page).flagsToken
      = answer renderer page := by
  unfold workEnd answer
  cases renderer page <;> rfl

/-- What holds of a reader between renderings. -/
structure Sound (r : Reader) : Prop where
  accounted : r.queue.Accounted []
  on : r.queue.stopped = false
  paused : r.queue.paused = true
  idle : r.queue.workers = [.awake] ∨ r.queue.workers = [.asleep]
  listed : ∀ id page, (id, page) ∈ r.awaited → r.pages.lookup id = some page
  fate : ∀ id page, (id, page) ∈ r.awaited →
    r.queue.isOpen id = true ∨ r.queue.result? id = some (.error .cancelled)
  awaits : ∀ id ∈ r.queue.waiting, ∃ page, (id, page) ∈ r.awaited
  numbered : ∀ id page, (id, page) ∈ r.pages → id ≤ r.queue.tasks.size
  consistent : r.cache.Consistent measure
  bounded : r.cache.Bounded

variable {r : Reader}

theorem Sound.running_nil (s : r.Sound) : r.queue.running = [] := by
  have held := s.accounted.held
  rcases s.idle with idle | idle <;> rw [idle] at held <;> exact held.eq_nil

theorem Sound.isOpen_iff (s : r.Sound) (id : TaskNumber) :
    r.queue.isOpen id = true ↔ id ∈ r.queue.waiting := by
  constructor
  · intro still
    rcases s.accounted.placed_of_isOpen still with waits | runs
    · exact waits
    · rw [s.running_nil] at runs
      exact absurd runs List.not_mem_nil
  · exact s.accounted.isOpen_waiting

theorem Sound.pageOf_eq (s : r.Sound) {id : TaskNumber} {page : Count}
    (awaited : (id, page) ∈ r.awaited) : r.pageOf id = page := by
  rw [pageOf, s.listed id page awaited, Option.getD_some]

theorem Sound.congr (s : r.Sound) {r' : Reader} (queue : r'.queue = r.queue)
    (cache : r'.cache = r.cache) (pages : r'.pages = r.pages) (awaited : r'.awaited = r.awaited) :
    r'.Sound := by
  obtain ⟨accounted, on, paused, idle, listed, fate, awaits, numbered, consistent, bounded⟩ := s
  constructor <;> simp only [queue, cache, pages, awaited] <;> assumption

theorem Sound.use (s : r.Sound) (call : CacheCall PageKey Bitmap) :
    Sound { r with cache := (r.cache.perform measure call).2.2 } :=
  { s with
    consistent := Store.perform_consistent s.consistent call
    bounded := Store.perform_bounded s.consistent s.bounded call }

/-! ## Submitting -/

theorem mem_of_lookup {pages : List (TaskNumber × Count)} {id : TaskNumber} {page : Count}
    (found : pages.lookup id = some page) : (id, page) ∈ pages := by
  obtain ⟨before, after, rfl, _⟩ := List.lookup_eq_some_iff.mp found
  exact List.mem_append_right _ List.mem_cons_self

theorem Sound.known (s : r.Sound) {id : TaskNumber} {page : Count}
    (awaited : (id, page) ∈ r.awaited) : id ≤ r.queue.tasks.size :=
  s.numbered id page (mem_of_lookup (s.listed id page awaited))

/-- A task that is open or was cancelled stays so, unless its work ends. -/
theorem fate_apply {q : Queue Count} (h : q.Accounted []) (event : QueueEvent Count)
    (outside : event.worker? = none) {id : TaskNumber}
    (fate : q.isOpen id = true ∨ q.result? id = some (.error .cancelled)) :
    (q.apply event).isOpen id = true ∨ (q.apply event).result? id = some (.error .cancelled) := by
  rcases fate with still | cancelled
  · obtain ⟨t, ht, hr⟩ := (Queue.isOpen_iff _ id).mp still
    obtain ⟨t', ht', _⟩ := (h.later_apply event).ages id t ht
    rw [Queue.isOpen, Queue.result?, ht']
    rcases h.task_apply event ht' with
      ⟨t₀, ht₀, rfl | rfl | ⟨_, _, rfl, _⟩⟩ | ⟨_, _, rfl, new, _⟩
    · cases ht.symm.trans ht₀
      exact .inl (Option.isNone_iff_eq_none.mpr hr)
    · cases ht.symm.trans ht₀
      exact .inr (by rw [Option.bind_some, Task.settle, hr]; rfl)
    · cases outside
    · exact absurd (Queue.le_size ht) (Nat.not_le_of_lt (new ▸ Nat.lt_succ_self _))
  · exact .inr ((h.later_apply event).result_kept id _ cancelled)

theorem Sound.submit (s : r.Sound) (page : Count) (priority : Priority) :
    (r.submit page priority).Sound := by
  have accounted := Queue.submit_accounted s.accounted priority 0
  have table := Queue.task?_submit r.queue priority 0
  have later := Queue.later_submit r.queue priority 0
  have entered := table (r.queue.tasks.size + 1)
  rw [if_pos rfl] at entered
  refine {
    accounted := accounted
    on := (Queue.stopped_submit _ _ _).trans s.on
    paused := ?_, idle := ?_, listed := ?_, fate := ?_, awaits := ?_, numbered := ?_
    consistent := s.consistent
    bounded := s.bounded }
  · show (r.queue.submit priority 0).2.paused = true
    cases refused : r.queue.refuses priority with
    | true =>
      rw [Queue.submit_of_refused refused, Queue.abandon_eq, Queue.modifyTask_frame]
      exact s.paused
    | false =>
      rw [Queue.submit_of_taken refused]
      exact s.paused
  · show (r.queue.submit priority 0).2.workers = _ ∨ (r.queue.submit priority 0).2.workers = _
    rcases Queue.workers_submit r.queue priority 0 with same | woken
    · rw [same]
      exact s.idle
    · rw [woken]
      rcases s.idle with idle | idle <;> rw [idle] <;> exact .inl rfl
  · intro id p awaited
    show List.lookup id ((r.queue.tasks.size + 1, page) :: r.pages) = some p
    rcases List.mem_append.mp awaited with before | now
    · have other : (id == r.queue.tasks.size + 1) = false :=
        beq_false_of_ne (Nat.ne_of_lt (Nat.lt_succ_of_le (s.known before)))
      rw [List.lookup_cons, other]
      exact s.listed id p before
    · cases List.mem_singleton.mp now
      exact List.lookup_cons_self
  · intro id p awaited
    show (r.queue.submit priority 0).2.isOpen id = true
      ∨ (r.queue.submit priority 0).2.result? id = some (.error .cancelled)
    rcases List.mem_append.mp awaited with before | now
    · exact fate_apply s.accounted (.submit priority 0) rfl (s.fate id p before)
    · cases List.mem_singleton.mp now
      rw [Queue.isOpen, Queue.result?, entered]
      cases r.queue.refuses priority with
      | true => exact .inr rfl
      | false => exact .inl rfl
  · intro id waits
    rcases later.waits_new id waits with before | new
    · obtain ⟨p, awaited⟩ := s.awaits id before
      exact ⟨p, List.mem_append_left _ awaited⟩
    · refine ⟨page, List.mem_append_right _ (List.mem_singleton.mpr ?_)⟩
      -- a number that is new and has a task is the next one
      obtain ⟨t, ht, rfl⟩ := List.mem_map.mp waits
      have found := accounted.fresh t ht
      by_cases next : t.id = r.queue.tasks.size + 1
      · rw [next]
      · rw [table, if_neg next] at found
        exact absurd (Queue.le_size found) (Nat.not_le_of_lt new)
  · intro id p listed
    rcases List.mem_cons.mp listed with now | before
    · cases now
      exact Queue.le_size entered
    · exact Nat.le_trans (s.numbered id p before) later.size_le

/-! ## Switching background work -/

theorem Sound.sync (s : r.Sound) : r.sync.Sound := by
  have accounted := Queue.setBackground_accounted s.accounted (!r.planner.output.underLoad)
  have later := Queue.later_setBackground r.queue (!r.planner.output.underLoad)
  obtain ⟨_, _, _, _, size, eq⟩ :=
    Queue.setBackground_stays r.queue (!r.planner.output.underLoad)
  refine {
    accounted := accounted
    on := ?_, paused := ?_, idle := ?_
    listed := s.listed
    fate := ?_, awaits := ?_, numbered := ?_
    consistent := s.consistent
    bounded := s.bounded }
  · show (r.queue.setBackground _).stopped = false
    rw [eq]
    exact s.on
  · show (r.queue.setBackground _).paused = true
    rw [eq]
    exact s.paused
  · show (r.queue.setBackground _).workers = _ ∨ (r.queue.setBackground _).workers = _
    rw [eq]
    exact s.idle
  · intro id page awaited
    exact fate_apply s.accounted (.setBackground _) rfl (s.fate id page awaited)
  · intro id waits
    rcases later.waits_new id waits with before | new
    · exact s.awaits id before
    · have known : id ≤ (r.queue.setBackground (!r.planner.output.underLoad)).tasks.size :=
        accounted.waiting_le_size waits
      rw [eq] at known
      exact absurd (Nat.le_trans known (Nat.le_of_eq size)) (Nat.not_le_of_lt new)
  · intro id page listed
    exact Nat.le_trans (s.numbered id page listed) later.size_le

/-! ## Rendering -/

theorem keep_sound (width : UInt32) (renderer : Renderer) (pages : List Count)
    {cache : Store PageKey Bitmap} (consistent : cache.Consistent measure)
    (bounded : cache.Bounded) :
    (pages.foldl (keep width renderer) cache).Consistent measure ∧
      (pages.foldl (keep width renderer) cache).Bounded := by
  induction pages generalizing cache with
  | nil => exact ⟨consistent, bounded⟩
  | cons page pages ih =>
    have kept : (keep width renderer cache page).Consistent measure ∧
        (keep width renderer cache page).Bounded := by
      unfold keep
      cases renderer page with
      | value bitmap =>
        exact ⟨Store.put_consistent consistent _ _, Store.put_bounded consistent _ _⟩
      | error | crash => exact ⟨consistent, bounded⟩
    exact ih kept.1 kept.2

theorem Sound.resume (s : r.Sound) :
    r.queue.resume.Accounted [] ∧ r.queue.resume.stopped = false ∧ r.queue.resume.paused = false ∧
    r.queue.resume.workers = [.awake] ∧ r.queue.resume.pending = r.queue.pending ∧
    ∀ id, r.queue.resume.task? id = r.queue.task? id := by
  have accounted := Queue.apply_accounted s.accounted .resume
  change r.queue.resume.Accounted [] at accounted
  have resumed : r.queue.resume = (Queue.publish { r.queue with paused := false }).wakeAll := by
    rw [Queue.resume, if_pos s.paused]
  refine ⟨accounted, ?_⟩
  rw [resumed]
  refine ⟨s.on, rfl, ?_, rfl, fun _ => rfl⟩
  show r.queue.workers.map Worker.woken = [.awake]
  rcases s.idle with idle | idle <;> rw [idle] <;> rfl

theorem Sound.rendered (s : r.Sound) (renderer : Renderer) :
    let after := (r.render renderer).2
    after.cache
      = (r.queue.pending.upcoming.map (r.pageOf ·.id)).foldl (keep r.width renderer) r.cache ∧
    (∀ id, after.queue.task? id = if id ∈ r.queue.waiting
      then (r.queue.task? id).map (Queue.endedBy (workEnd renderer (r.pageOf id)))
      else r.queue.task? id) ∧
    after.queue.Accounted [] ∧ after.queue.pending = .empty ∧ after.queue.workers = [.asleep] ∧
    after.queue.stopped = false ∧ after.queue.paused = true := by
  obtain ⟨accounted, on, going, alone, pending, tasks⟩ := s.resume
  obtain ⟨effects, table, accounted, empty, asleep, on, going⟩ :=
    accounted.settle_alone on going alone
      (work_eq { r with queue := r.queue.resume } renderer) r.cache
  have paused : (r.render renderer).2.queue = Queue.publish
      { (Reader.settle { r with queue := r.queue.resume } renderer).queue with paused := true } :=
    if_neg (Bool.not_eq_true _ ▸ going)
  intro after
  rw [show after.queue = _ from paused]
  refine ⟨?_, ?_, (accounted.switches _ true _ _).publish, empty, asleep, on, rfl⟩
  · rw [pending, List.foldl_map] at effects
    rw [List.foldl_map]
    exact effects
  · intro id
    have found := table id
    rw [Queue.waiting, pending, tasks] at found
    exact found

theorem Sound.render (s : r.Sound) (renderer : Renderer) : (r.render renderer).2.Sound := by
  obtain ⟨effects, table, accounted, empty, asleep, on, paused⟩ := s.rendered renderer
  have kept := keep_sound r.width renderer (r.queue.pending.upcoming.map (r.pageOf ·.id))
    s.consistent s.bounded
  rw [← effects] at kept
  refine {
    accounted := accounted, on := on, paused := paused, idle := .inr asleep
    listed := fun _ _ awaited => absurd awaited List.not_mem_nil
    fate := fun _ _ awaited => absurd awaited List.not_mem_nil
    awaits := ?_, numbered := ?_
    consistent := kept.1
    bounded := kept.2 }
  · intro id waits
    rw [Queue.waiting, empty] at waits
    exact absurd waits List.not_mem_nil
  · intro id page listed
    refine Nat.le_of_not_lt fun late => ?_
    -- every task that was there is there
    have lost := table id
    rw [(Queue.task?_eq_none _ id).mpr (.inr late)] at lost
    have known : r.queue.task? id = none := by
      split at lost
      · exact Option.map_eq_none_iff.mp lost.symm
      · exact lost.symm
    rcases (Queue.task?_eq_none _ id).mp known with zero | beyond
    · exact absurd (zero ▸ late) (Nat.not_lt_zero _)
    · exact absurd (s.numbered id page listed) (Nat.not_le_of_lt beyond)

/-- **Every page that is awaited is answered**: with what the renderer makes of it if its
task waits, and with its cancellation otherwise. -/
theorem Sound.answers (s : r.Sound) (renderer : Renderer) :
    (r.render renderer).1 = r.awaited.map fun (id, page) =>
      (page, some (if r.queue.isOpen id then answer renderer page else .error .cancelled)) := by
  obtain ⟨_, table, _⟩ := s.rendered renderer
  refine List.map_congr_left fun (id, page) awaited => ?_
  show (page, (r.render renderer).2.queue.result? id) = _
  congr 1
  rw [Queue.result?, table]
  cases still : r.queue.isOpen id with
  | true =>
    obtain ⟨t, ht, hr⟩ := (Queue.isOpen_iff _ id).mp still
    rw [if_pos ((s.isOpen_iff id).mp still), s.pageOf_eq awaited, ht, if_pos rfl, Option.map_some,
      Option.bind_some, Queue.endedBy, Task.settle, hr, toTaskAnswer_workEnd]
    rfl
  | false =>
    have apart : id ∉ r.queue.waiting := by
      rw [← s.isOpen_iff, still]
      exact Bool.false_ne_true
    rw [if_neg apart, if_neg Bool.false_ne_true]
    rcases s.fate id page awaited with now | cancelled
    · rw [still] at now
      cases now
    · exact cancelled

/-! ## Runs -/

theorem ofPlanner_sound (planner : Planner Float) (pageCount : Count) (width : UInt32)
    (budget : Count) : (ofPlanner planner pageCount width budget).Sound where
  accounted := Queue.start_accounted 1 true
  on := rfl
  paused := rfl
  idle := .inl rfl
  listed _ _ awaited := absurd awaited List.not_mem_nil
  fate _ _ awaited := absurd awaited List.not_mem_nil
  awaits _ waits := absurd waits List.not_mem_nil
  numbered _ _ listed := absurd listed List.not_mem_nil
  consistent := Store.empty_consistent budget
  bounded := .inl UInt64.zero_le

theorem Sound.showPage (s : r.Sound) (page : Count) : (r.showPage page).2.Sound := by
  have submitted (wanted : List (Count × Priority)) : ∀ r : Reader, r.Sound →
      (wanted.foldl (fun r entry => r.submit entry.1 entry.2) r).Sound := by
    induction wanted with
    | nil => exact fun _ s => s
    | cons first wanted ih => exact fun _ s => ih _ (s.submit first.1 first.2)
  exact submitted _ _ (s.congr rfl rfl rfl rfl)

/-- **Whatever happens to a reader keeps it sound.** -/
theorem Sound.apply (s : r.Sound) (event : ReaderEvent) : (r.apply event).Sound := by
  cases event with
  | showPage page => exact s.showPage page
  | render renderer => exact s.render renderer
  | sync => exact s.sync
  | notify event => exact s.congr rfl rfl rfl rfl
  | advance time => exact s.congr rfl rfl rfl rfl
  | relieve pressure => exact s.use (.relieve pressure)
  | lookup page => exact (s.use (.get (.wholePage page r.width))).congr rfl rfl rfl rfl
  | close => exact (s.use .clear).congr rfl rfl rfl rfl

theorem run_sound (planner : Planner Float) (pageCount : Count) (width : UInt32)
    (budget : Count) (events : List ReaderEvent) :
    ((ofPlanner planner pageCount width budget).run events).Sound := by
  suffices kept : ∀ r : Reader, r.Sound → (r.run events).Sound from
    kept _ (ofPlanner_sound planner pageCount width budget)
  unfold run
  induction events with
  | nil => exact fun _ s => s
  | cons event events ih => exact fun _ s => ih _ (s.apply event)

/-- **Rendering answers everything.** In every run of a reader, whatever its planner says:
rendering answers each page that was submitted since the last rendering, in the order of
submission, with what the renderer makes of it if its task waits, and with its cancellation
otherwise. The bitmaps of those that wait, which are all among the awaited, enter the cache
by urgency. Afterwards no task waits or runs, and the cache keeps its budget or holds one
bitmap alone above it. -/
theorem render_answers (planner : Planner Float) (pageCount : Count) (width : UInt32)
    (budget : Count) (events : List ReaderEvent) (renderer : Renderer) :
    let r := (ofPlanner planner pageCount width budget).run events
    let (answers, after) := r.render renderer
    answers = r.awaited.map (fun (id, page) =>
      (page, some (if r.queue.isOpen id then answer renderer page else .error .cancelled))) ∧
    (∀ id, r.queue.isOpen id = true → (id, r.pageOf id) ∈ r.awaited) ∧
    after.cache
      = (r.queue.pending.upcoming.map (r.pageOf ·.id)).foldl (keep r.width renderer) r.cache ∧
    after.queue.statistics.inFlight = 0 ∧ after.cache.Bounded := by
  intro r
  have s : r.Sound := run_sound planner pageCount width budget events
  obtain ⟨cache, _, _, empty, _⟩ := s.rendered renderer
  refine ⟨s.answers renderer, ?_, cache, ?_, (s.render renderer).bounded⟩
  · intro id still
    obtain ⟨page, awaited⟩ := s.awaits id ((s.isOpen_iff id).mp still)
    rwa [s.pageOf_eq awaited]
  · show (r.render renderer).2.queue.pending.size + (r.render renderer).2.queue.running.length = 0
    rw [empty, (s.render renderer).running_nil]
    rfl

end ReadAhead.Reader
