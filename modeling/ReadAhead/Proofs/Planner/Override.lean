import Mathlib.Tactic.FinCases
import ReadAhead.Planner.Setting
import ReadAhead.Planner.State
import ReadAhead.Proofs.Planner.Validation

/-!
  Override — a tuning taken from the environment, as a whole or not at all

  Each part of a tuning has a variable. Loading goes through the variables in order:
  one that is not set leaves its part, one that reads replaces it, and one that does not
  read ends the loading. Only what comes out in the end is validated, so parts that are
  not usable without each other can be set together, in any order; and a variable that
  does not read is told before a rule that is broken, wherever the two stand.

  What is proved:
    1. `Setting.override_of_reads`, `override_of_garbled` — what one variable does.
    2. `Setting.foldlM_of_reads`, `foldlM_of_first` — so the variables do all that they
       say, or the first that does not read is the error.
    3. `Setting.foldl_assign` — what they say, part by part.
    4. `Tuning.override_exact` — when loading succeeds, what it gives, and which of the
       errors it is.
    5. `Tuning.override_exact_together` (anti-vacuity) — two settings that are usable
       only together, and a broken rule before a variable that does not read.
-/

namespace ReadAhead

variable {α : Type}

/-! ## One variable -/

namespace Environment

variable (env : Environment) (reader : List Char → Option α) (name : String)

/-- Whether the trimmed text of a variable reads, if it is set to text. -/
def reads : Bool := (env.text? name).all fun text => (reader (Text.trim text.toList)).isSome

/-- What a variable says, if it is set to text that reads. -/
def said? : Option α := (env.text? name).bind fun text => reader (Text.trim text.toList)

/-- What a variable says in place of a value. -/
def instead (old : α) : α := (env.said? reader name).getD old

variable {env reader name}

theorem read?_of_reads (reads : env.reads reader name = true) :
    env.read? reader name = .ok (env.said? reader name) := by
  unfold Environment.reads at reads
  unfold read? said?
  cases set : env.text? name with
  | none => rfl
  | some text =>
    rw [set] at reads
    obtain ⟨value, found⟩ := Option.isSome_iff_exists.mp reads
    simp only [Option.bind_some, found]

theorem read?_of_garbled (garbled : env.reads reader name = false) :
    env.read? reader name = .error (.invalidValue name) := by
  unfold Environment.reads at garbled
  unfold read?
  cases set : env.text? name with
  | none =>
    rw [set] at garbled
    cases garbled
  | some text =>
    rw [set] at garbled
    have nothing : reader (Text.trim text.toList) = none := Option.not_isSome_iff_eq_none.mp
      (ne_true_of_eq_false garbled)
    simp only [nothing]

end Environment

/-- Putting back what is there changes nothing. -/
def Slot.IsPart : Slot α → Prop
  | .count get set => ∀ t, set (get t) t = t
  | .measure get set => ∀ t, set (get t) t = t

theorem Slot.elim_eq_set {β : Type} {get : Tuning α → β} {set : β → Tuning α → Tuning α}
    (part : ∀ t, set (get t) t = t) (value : Option β) (t : Tuning α) :
    value.elim t (set · t) = set (value.getD (get t)) t := by
  cases value with
  | none => exact (part t).symm
  | some value => rfl

namespace Setting

theorem isPart_of_mem {s : Setting α} (listed : s ∈ all) : s.slot.IsPart := by
  fin_cases listed <;> exact fun _ => rfl

/-- Whether the variable of a setting reads, if it is set to text. -/
def reads (env : Environment) (s : Setting Float) : Bool :=
  match s.slot with
  | .count _ _ => env.reads Text.count? s.variableName
  | .measure _ _ => env.reads Text.measure? s.variableName

/-- The tuning with what the variable of a setting says in place of its part. -/
def assign (env : Environment) (t : Tuning Float) (s : Setting Float) : Tuning Float :=
  match s.slot with
  | .count get set => set (env.instead Text.count? s.variableName (get t)) t
  | .measure get set => set (env.instead Text.measure? s.variableName (get t)) t

variable {env : Environment} {s : Setting Float} {before after : List (Setting Float)}

theorem override_of_reads (part : s.slot.IsPart) (reads : s.reads env = true)
    (t : Tuning Float) : override env t s = .ok (s.assign env t) := by
  obtain ⟨key, slot⟩ := s
  cases slot with
  | count get set | measure get set =>
    have read := Environment.read?_of_reads reads
    simp only [override, read, assign, Environment.instead, ← Slot.elim_eq_set part]
    rfl

theorem override_of_garbled (garbled : s.reads env = false) (t : Tuning Float) :
    override env t s = .error (.invalidValue s.variableName) := by
  obtain ⟨key, slot⟩ := s
  cases slot with
  | count get set | measure get set =>
    have read := Environment.read?_of_garbled garbled
    simp only [override, read]
    rfl

/-! ## All variables -/

theorem foldlM_of_reads (parts : ∀ r ∈ before, r.slot.IsPart)
    (reads : ∀ r ∈ before, r.reads env = true) (t : Tuning Float) :
    before.foldlM (override env) t = .ok (before.foldl (assign env) t) := by
  induction before generalizing t with
  | nil => rfl
  | cons r before ih =>
    obtain ⟨part, parts⟩ := List.forall_mem_cons.mp parts
    obtain ⟨first, reads⟩ := List.forall_mem_cons.mp reads
    rw [List.foldlM_cons, override_of_reads part first]
    exact ih parts reads _

theorem foldlM_of_first (parts : ∀ r ∈ before, r.slot.IsPart)
    (reads : ∀ r ∈ before, r.reads env = true) (garbled : s.reads env = false)
    (t : Tuning Float) :
    (before ++ s :: after).foldlM (override env) t = .error (.invalidValue s.variableName) := by
  rw [List.foldlM_append, foldlM_of_reads parts reads]
  show List.foldlM (override env) _ (s :: after) = _
  rw [List.foldlM_cons, override_of_garbled garbled]
  rfl

theorem reads_or_first (env : Environment) :
    (∀ s ∈ all, s.reads env = true) ∨
    ∃ before s after, all = before ++ s :: after ∧
      (∀ r ∈ before, r.reads env = true) ∧ s.reads env = false := by
  cases found : all.find? fun s => !s.reads env with
  | none =>
    refine .inl fun s listed => ?_
    simpa using List.find?_eq_none.mp found s listed
  | some s =>
    obtain ⟨garbled, before, after, split, reads⟩ := List.find?_eq_some_iff_append.mp found
    refine .inr ⟨before, s, after, split, fun r listed => ?_, ?_⟩
    · simpa using reads r listed
    · simpa using garbled

theorem map_variableName : (all : List (Setting Float)).map variableName =
    [ "PAGEFLOW_FLOW_FRAME_WINDOW",
      "PAGEFLOW_FLOW_JANK_THRESHOLD_MS",
      "PAGEFLOW_FLOW_MIN_CONSECUTIVE_JANK_SAMPLES",
      "PAGEFLOW_FLOW_MAX_PLAUSIBLE_FRAME_MS",
      "PAGEFLOW_FLOW_COOLDOWN_MS",
      "PAGEFLOW_FLOW_SPEED_WINDOW",
      "PAGEFLOW_FLOW_SPEED_SMOOTHING",
      "PAGEFLOW_FLOW_IDLE_RESET_MS",
      "PAGEFLOW_FLOW_JUMP_THRESHOLD_PAGES",
      "PAGEFLOW_FLOW_MIN_PRELOAD_PAGES",
      "PAGEFLOW_FLOW_MAX_PRELOAD_PAGES",
      "PAGEFLOW_FLOW_PAGES_PER_MINUTE_PER_EXTRA_PAGE",
      "PAGEFLOW_FLOW_TILT_SMOOTHING",
      "PAGEFLOW_FLOW_NEUTRAL_PITCH_DEGREES",
      "PAGEFLOW_FLOW_TILT_DEAD_ZONE_DEGREES",
      "PAGEFLOW_FLOW_MAX_TILT_DEGREES",
      "PAGEFLOW_FLOW_MAX_SWIPE_SENSITIVITY",
      "PAGEFLOW_FLOW_TILT_EXTRA_PAGES" ] := by
  decide +kernel

end Setting

namespace Tuning

open Text in
/-- The tuning in which each part is what its variable says, or its own. -/
def replaced (t : Tuning Float) (env : Environment) : Tuning Float where
  frameWindow := env.instead count? "PAGEFLOW_FLOW_FRAME_WINDOW" t.frameWindow
  lateFrame := env.instead measure? "PAGEFLOW_FLOW_JANK_THRESHOLD_MS" t.lateFrame
  lateRun := env.instead count? "PAGEFLOW_FLOW_MIN_CONSECUTIVE_JANK_SAMPLES" t.lateRun
  longestFrame := env.instead measure? "PAGEFLOW_FLOW_MAX_PLAUSIBLE_FRAME_MS" t.longestFrame
  cooldown := env.instead count? "PAGEFLOW_FLOW_COOLDOWN_MS" t.cooldown
  speedWindow := env.instead count? "PAGEFLOW_FLOW_SPEED_WINDOW" t.speedWindow
  speedWeight := env.instead measure? "PAGEFLOW_FLOW_SPEED_SMOOTHING" t.speedWeight
  idleReset := env.instead count? "PAGEFLOW_FLOW_IDLE_RESET_MS" t.idleReset
  longestTurn := env.instead count? "PAGEFLOW_FLOW_JUMP_THRESHOLD_PAGES" t.longestTurn
  leastPreload := env.instead count? "PAGEFLOW_FLOW_MIN_PRELOAD_PAGES" t.leastPreload
  mostPreload := env.instead count? "PAGEFLOW_FLOW_MAX_PRELOAD_PAGES" t.mostPreload
  speedPerPage :=
    env.instead measure? "PAGEFLOW_FLOW_PAGES_PER_MINUTE_PER_EXTRA_PAGE" t.speedPerPage
  tiltWeight := env.instead measure? "PAGEFLOW_FLOW_TILT_SMOOTHING" t.tiltWeight
  neutralPitch := env.instead measure? "PAGEFLOW_FLOW_NEUTRAL_PITCH_DEGREES" t.neutralPitch
  deadZone := env.instead measure? "PAGEFLOW_FLOW_TILT_DEAD_ZONE_DEGREES" t.deadZone
  fullTilt := env.instead measure? "PAGEFLOW_FLOW_MAX_TILT_DEGREES" t.fullTilt
  fullSensitivity := env.instead measure? "PAGEFLOW_FLOW_MAX_SWIPE_SENSITIVITY" t.fullSensitivity
  tiltPages := env.instead count? "PAGEFLOW_FLOW_TILT_EXTRA_PAGES" t.tiltPages

end Tuning

/-- No variable has a say about the part of another. -/
theorem Setting.foldl_assign (env : Environment) (t : Tuning Float) :
    all.foldl (assign env) t = t.replaced env := by
  have names := map_variableName
  simp only [all, List.map_cons, List.map_nil, List.cons.injEq, and_true] at names
  -- each part is read from a tuning in which only the parts before it are replaced
  simp only [all, List.foldl_cons, List.foldl_nil, assign, names]
  rfl

namespace Tuning

/-! ## Loading -/

variable {t : Tuning Float} {env : Environment}

theorem override_of_reads (reads : ∀ s ∈ Setting.all, s.reads env = true) :
    t.override env = (t.replaced env).validate := by
  rw [override, Setting.foldlM_of_reads (fun _ => Setting.isPart_of_mem) reads,
    Setting.foldl_assign]
  rfl

theorem override_of_first {before after : List (Setting Float)} {s : Setting Float}
    (split : Setting.all = before ++ s :: after) (reads : ∀ r ∈ before, r.reads env = true)
    (garbled : s.reads env = false) :
    t.override env = .error (.invalidValue s.variableName) := by
  have parts : ∀ r ∈ before, r.slot.IsPart := fun r listed => Setting.isPart_of_mem (by
    rw [split]
    exact List.mem_append_left _ listed)
  rw [override, split, Setting.foldlM_of_first parts reads garbled]
  rfl

/-- **Loading from the environment is exact, and all or nothing.** For every tuning and
every environment: loading succeeds exactly if each variable that is set to text reads,
trimmed, and the tuning with all that they say is accepted. It gives this tuning, each
part from its own variable or as it was, and a planner can be made of it. The first
variable in order that does not read is the error, whatever a validation would tell; and
if they all read, it is the first rule in order that is broken. -/
theorem override_exact (t : Tuning Float) (env : Environment) :
    ((∃ u, t.override env = .ok u) ↔
      (∀ s ∈ Setting.all, s.reads env = true) ∧
      (t.replaced env).validate = .ok (t.replaced env)) ∧
    (∀ u, t.override env = .ok u →
      u = t.replaced env ∧ Planner.ofTuning u = .ok (.start u)) ∧
    (∀ before s after, Setting.all = before ++ s :: after →
      (∀ r ∈ before, r.reads env = true) → s.reads env = false →
      t.override env = .error (.invalidValue s.variableName)) ∧
    ∀ before rule after, rules = before ++ rule :: after →
      (∀ s ∈ Setting.all, s.reads env = true) →
      (∀ r ∈ before, r.2 (t.replaced env) = true) → rule.2 (t.replaced env) = false →
      t.override env = .error (.invalidValue rule.1) := by
  have success (u : Tuning Float) (loaded : t.override env = .ok u) :
      (∀ s ∈ Setting.all, s.reads env = true) ∧ u = t.replaced env ∧ u.validate = .ok u := by
    rcases Setting.reads_or_first env with reads | ⟨before, s, after, split, reads, garbled⟩
    · rw [override_of_reads reads] at loaded
      obtain rfl := eq_of_validate loaded
      exact ⟨reads, rfl, loaded⟩
    · rw [override_of_first split reads garbled] at loaded
      cases loaded
  refine ⟨⟨?_, ?_⟩, ?_, fun _ _ _ => override_of_first, ?_⟩
  · rintro ⟨u, loaded⟩
    obtain ⟨reads, rfl, accepted⟩ := success u loaded
    exact ⟨reads, accepted⟩
  · rintro ⟨reads, accepted⟩
    exact ⟨t.replaced env, (override_of_reads reads).trans accepted⟩
  · intro u loaded
    obtain ⟨_, same, accepted⟩ := success u loaded
    refine ⟨same, ?_⟩
    rw [Planner.ofTuning, accepted]
    rfl
  · intro before rule after split reads kept broken
    rw [override_of_reads reads, validate_of_first split kept broken]

/-- **Not vacuous**: nine pages at least are refused beside eight at most, and accepted
together with twelve; and a word for a count is told, though a rule about an earlier
setting is broken. -/
theorem override_exact_together :
    let env (texts : List (String × String)) : Environment :=
      fun name => (texts.lookup name).map String.toUTF8
    let least := ("PAGEFLOW_FLOW_MIN_PRELOAD_PAGES", " 9 ")
    let most := ("PAGEFLOW_FLOW_MAX_PRELOAD_PAGES", "+12")
    let nothing := ("PAGEFLOW_FLOW_FRAME_WINDOW", "0")
    let word := ("PAGEFLOW_FLOW_TILT_EXTRA_PAGES", "many")
    let t : Tuning Float := .standard
    let load (texts : List (String × String)) := t.override (env texts)
    load [least] = .error (.invalidValue "min_preload_pages") ∧
    (∃ u, load [least, most] = .ok u ∧ u.leastPreload = 9 ∧ u.mostPreload = 12 ∧
      u.tiltPages = t.tiltPages ∧ Planner.ofTuning u = .ok (.start u)) ∧
    load [nothing, word] = .error (.invalidValue "PAGEFLOW_FLOW_TILT_EXTRA_PAGES") := by
  intro env least most nothing word t load
  obtain ⟨_, _, _, refused⟩ := override_exact t (env [least])
  obtain ⟨loads, loaded, _, _⟩ := override_exact t (env [least, most])
  obtain ⟨_, _, garbled, _⟩ := override_exact t (env [nothing, word])
  refine ⟨?_, ?_, ?_⟩
  · exact refused (rules.take 6) _ (rules.drop 7) rfl (by decide +kernel) (by decide +kernel)
      (by decide +kernel)
  · obtain ⟨u, accepted⟩ := loads.mpr
      ⟨by decide +kernel, validate_of_rules (by decide +kernel)⟩
    obtain ⟨rfl, usable⟩ := loaded u accepted
    exact ⟨_, accepted, by decide +kernel, by decide +kernel, by decide +kernel, usable⟩
  · have told := garbled (Setting.all.take 17) _ [] rfl (by decide +kernel) (by decide +kernel)
    have name : (Setting.all.drop 17).map Setting.variableName = [word.1] :=
      congrArg (List.drop 17) Setting.map_variableName
    rwa [(List.cons.inj name).1] at told

end Tuning

end ReadAhead
