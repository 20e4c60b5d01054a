/-!
  Settings errors — why a configuration is refused

  A setting is refused by its name, a document as a whole, and a file because
  it is missing or is not text.
-/

namespace ReadAhead

inductive SettingsError where
  /-- The setting or variable of this name has a value that is not admitted. -/
  | invalidValue (key : String)
  /-- The document is not a well-formed one, or not one about these settings. -/
  | malformed
  | notFound
  /-- The file is not text. -/
  | notText
  deriving DecidableEq, Repr

def SettingsError.message : SettingsError → String
  | .invalidValue key => "invalid value for configuration key: " ++ key
  | .malformed => "malformed configuration"
  | .notFound => "I/O error: no such file"
  | .notText => "I/O error: stream did not contain valid UTF-8"

end ReadAhead
