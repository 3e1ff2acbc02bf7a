import MarkerDoc.FileError
import MarkerDoc.Settings
import MarkerDoc.Toml.Document

/-!
# Reading settings

Settings are read from two sections, `extract` and `test`.  A section is a table whose keys are
all known; a key that is missing keeps its default.  A section may also be an array, which gives
the settings in their order, leaves those it does not reach at their defaults and may go on with
anything.  A value of the wrong kind makes the whole text unreadable.
-/

namespace MarkerDoc

/-- Why settings could not be loaded. -/
inductive SettingsError where
  | unreadable (cause : FileError)
  /-- The text does not follow the format, or holds something that is not a setting. -/
  | malformed
  | invalid (reason : InvalidSettings)
deriving DecidableEq

def SettingsError.message : SettingsError → String
  | .unreadable cause => "failed to read config file: " ++ cause.message
  | .malformed => "failed to parse config"
  | .invalid reason => "invalid config: " ++ reason.message

namespace Settings

/-- The texts of an array of strings. -/
def stringList? : Toml.Value → Option (List String)
  | .array items => items.mapM fun
    | .string text => some text
    | _ => none
  | _ => none

/-- A whole number that is not negative. -/
def natural? : Toml.Value → Option Nat
  | .integer (.ofNat n) => some n
  | _ => none

/-- How the settings of a section are changed one by one: by name, and in which order. -/
structure Section (σ : Type) where
  keys : List String
  set : σ → String → Toml.Value → Option σ

def extractSection : Section ExtractSettings where
  keys := ["extensions", "source-extensions", "document-extensions", "exclude-dirs"]
  set s key value :=
    match key with
    | "extensions" => (stringList? value).map fun v => { s with extensions := v }
    | "source-extensions" => (stringList? value).map fun v => { s with sourceExtensions := v }
    | "document-extensions" => (stringList? value).map fun v => { s with documentExtensions := v }
    | "exclude-dirs" => (stringList? value).map fun v => { s with excludeDirs := v }
    | _ => none

def testSection : Section TestSettings where
  keys := ["command", "timeout-secs"]
  set s key value :=
    match key with
    | "command" => (stringList? value).map fun v => { s with command := v }
    | "timeout-secs" => (natural? value).map fun v => { s with timeoutSecs := v }
    | _ => none

/-- Applies what a section says to its defaults. -/
def Section.read {σ : Type} (sec : Section σ) (defaults : σ) : Option Toml.Value → Option σ
  | none => some defaults
  | some (.table fields) => fields.foldlM (fun s (key, value) =>
      match key with
      | [name] => sec.set s name value
      | _ => none) defaults
  | some (.array items) =>
    (sec.keys.zip items).foldlM (fun s (key, value) => sec.set s key value) defaults
  | some _ => none

/-- The settings that a document of the settings format describes. -/
def ofDocument? (d : Toml.Document) : Option Settings := do
  if d.topNames.all ["extract", "test"].contains then
    let extract ← extractSection.read {} (d.topValue? "extract")
    let test ← testSection.read {} (d.topValue? "test")
    some { extract, test }
  else none

/-- Reads settings and checks that they can be used. -/
def parse (text : String) : Except SettingsError Settings :=
  match (Toml.Document.read? text).bind ofDocument? with
  | none => .error .malformed
  | some s =>
    match s.validate with
    | .ok s => .ok s
    | .error reason => .error (.invalid reason)

end Settings

end MarkerDoc
