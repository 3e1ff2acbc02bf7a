import MarkerDoc.Path

/-!
# Settings

What can be configured about a project: which modules count as extensions, which files are read
and which directories are passed over, and how tests are run.
-/

namespace MarkerDoc

/-- Settings for finding and reading files. -/
structure ExtractSettings where
  /-- Imports that bring attributes and modifiers. -/
  extensions : List String :=
    ["Moose", "Moose::Role", "Moo", "Moo::Role", "Mouse", "Mouse::Role", "Role::Tiny"]
  /-- File extensions of source files. -/
  sourceExtensions : List String := ["pm", "pl"]
  /-- File extensions of plain documents. -/
  documentExtensions : List String := ["md"]
  /-- Names of directories that are not searched. -/
  excludeDirs : List String := ["blib", "local", "target"]
deriving DecidableEq

namespace ExtractSettings

def hasExtension (p : Path) (extensions : List String) : Bool :=
  match p.extension?.bind Bytes.toText? with
  | some e => extensions.contains e
  | none => false

def isSource (s : ExtractSettings) (p : Path) : Bool :=
  hasExtension p s.sourceExtensions

def isDocument (s : ExtractSettings) (p : Path) : Bool :=
  hasExtension p s.documentExtensions

def isExcludedDir (s : ExtractSettings) (name : String) : Bool :=
  s.excludeDirs.contains name

end ExtractSettings

/-- Stands for the library root in a test command. -/
def libPlaceholder : String := "\x7blib\x7d"

/-- Stands for the script in a test command. -/
def scriptPlaceholder : String := "\x7bscript\x7d"

/-- Settings for running tests. -/
structure TestSettings where
  /-- Program and arguments, with placeholders for library root and script. -/
  command : List String := ["prove", "-I", libPlaceholder, scriptPlaceholder]
  /-- How long a run may take; zero means without limit. -/
  timeoutSecs : Nat := 300
deriving DecidableEq

/-- The limit on a run, if there is one. -/
def TestSettings.timeout? (t : TestSettings) : Option Nat :=
  if t.timeoutSecs = 0 then none else some t.timeoutSecs

structure Settings where
  extract : ExtractSettings := {}
  test : TestSettings := {}
deriving DecidableEq

/-- Why settings that can be read cannot be used. -/
inductive InvalidSettings where
  | emptyCommand
  | blankProgram
  | noScript
deriving DecidableEq

def InvalidSettings.message : InvalidSettings → String
  | .emptyCommand => "test command cannot be empty"
  | .blankProgram => "test command program cannot be blank"
  | .noScript => "test command must reference the " ++ scriptPlaceholder ++ " placeholder"

/-- Accepts settings whose test command names a program and the script. -/
def Settings.validate (s : Settings) : Except InvalidSettings Settings :=
  match s.test.command with
  | [] => .error .emptyCommand
  | program :: _ =>
    if Text.isBlankText program then .error .blankProgram
    else if s.test.command.any (Text.contains scriptPlaceholder) then .ok s
    else .error .noScript

end MarkerDoc
