import ReadAhead.Settings.Environment
import ReadAhead.Settings.Document

/-!
  Cache budget — how many bytes of bitmaps may stay resident

  The budget is given in bytes or in megabytes, by a program, by a settings
  document or by a variable of the environment. A document or variable that
  asks for more megabytes than there are bytes to count is refused; a program
  that does gets the largest budget.

  Correspondence (operation ↔ definition):
    `CacheConfig`            ↔ `CacheSettings`
    `with_mb`, `mb_to_bytes` ↔ `CacheSettings.ofMegabytes`, `CacheSettings.named`
    `apply_env`              ↔ `CacheSettings.override`
    `from_toml`, `from_file` ↔ `CacheSettings.ofText`, `CacheSettings.ofFile`
-/

namespace ReadAhead

structure CacheSettings where
  budget : Count
  deriving DecidableEq, Repr

namespace CacheSettings

def megabyte : Count := 1048576

def budgetVariable : String := "PAGEFLOW_BITMAP_CACHE_MB"

def budgetKey : String := "max_size_mb"

/-- The standard budget: 128 megabytes. -/
def standard : CacheSettings := ⟨128 * megabyte⟩

/-- A budget in megabytes, or the largest if that is too many. -/
def ofMegabytes (n : Count) : CacheSettings :=
  ⟨(Count.mul? n megabyte).getD Count.largest⟩

def megabytes (s : CacheSettings) : Count := s.budget / megabyte

/-- A budget in megabytes that was given under a name. -/
def named (name : String) (n : Count) : Except SettingsError CacheSettings :=
  match Count.mul? n megabyte with
  | none => .error (.invalidValue name)
  | some bytes => .ok ⟨bytes⟩

/-- The settings with the variable of the environment in place of the budget,
if it is set. -/
def override (s : CacheSettings) (env : Environment) : Except SettingsError CacheSettings := do
  match ← env.read? Text.count? budgetVariable with
  | none => return s
  | some n => named budgetVariable n

def ofBindings : Settings.Document → Except SettingsError CacheSettings
  | [] => .ok standard
  | [(key, literal)] =>
    match literal.count? with
    | some n => if key = budgetKey then named budgetKey n else .error .malformed
    | none => .error .malformed
  | _ => .error .malformed

def ofText (text : String) : Except SettingsError CacheSettings := do
  ofBindings (← Settings.Document.read text)

def ofFile (content : Option ByteArray) : Except SettingsError CacheSettings := do
  ofText (← Settings.Document.textOfFile content)

end CacheSettings

end ReadAhead
