import ReadAhead.Settings.Error
import ReadAhead.Text.Blank
import ReadAhead.Text.Numeral

/-!
  Environment — settings given as variables of the surroundings

  A variable holds bytes. One that holds no text counts as not set. The text
  of a variable is read without its blank ends; text that does not read is an
  error that names the variable.
-/

namespace ReadAhead

/-- The variables that are set, by name. -/
abbrev Environment := String → Option ByteArray

namespace Environment

/-- The text of a variable, if it is set to text. -/
def text? (env : Environment) (name : String) : Option String :=
  (env name).bind String.fromUTF8?

/-- The value of a variable, read from its trimmed text by the reader given;
nothing if the variable is not set to text. -/
def read? {α : Type} (env : Environment) (reader : List Char → Option α) (name : String) :
    Except SettingsError (Option α) :=
  match env.text? name with
  | none => .ok none
  | some text =>
    match reader (Text.trim text.toList) with
    | none => .error (.invalidValue name)
    | some value => .ok (some value)

end Environment

end ReadAhead
