import MarkerDoc.FileError
import MarkerDoc.Script
import MarkerDoc.Settings

/-!
# Running tests

A test run goes through the modules in order and never stops at a failure.  What it means to run
a script is left open: the runner is a parameter, an action in any monad that says how the run of
a script ended or why it could not be run.
-/

namespace MarkerDoc

/-- How the run of a script ended. -/
inductive Status where
  | passed
  /-- The exit code, unless the runner was stopped by a signal. -/
  | failed (code : Option Int)
deriving DecidableEq

/-- Why the system could not start a program. -/
inductive SpawnError where
  | nulInArgument
  | file (cause : FileError)
deriving DecidableEq

def SpawnError.message : SpawnError → String
  | .nulInArgument => "nul byte found in provided data"
  | .file cause => cause.message

/-- Why a test command could not be started. -/
inductive StartError where
  | emptyCommand
  | spawn (cause : SpawnError)
deriving DecidableEq

def StartError.message : StartError → String
  | .emptyCommand => "empty test command"
  | .spawn cause => cause.message

/-- Why the run of a script has no status. -/
inductive TestError where
  | runnerUnavailable (program : String) (cause : StartError)
  | timeout (seconds : Nat)
  | io (cause : FileError)
deriving DecidableEq

/-- A length of time in words. -/
def secondsText (seconds : Nat) : String :=
  if seconds = 0 then "0ns" else toString seconds ++ "s"

def TestError.message : TestError → String
  | .runnerUnavailable program cause =>
    "test runner `" ++ program ++ "` could not be started: " ++ cause.message
  | .timeout seconds => "test run did not finish within " ++ secondsText seconds
  | .io cause => "I/O error while running tests: " ++ cause.message

/-- The end of a run with the time it took in milliseconds. -/
structure Finish where
  status : Status
  millis : Nat := 0
deriving DecidableEq

/-- The result of the tests of one module. -/
structure Outcome where
  package : String
  path : Path
  subtests : Nat
  status : Status
  millis : Nat
deriving DecidableEq

def Outcome.passed (o : Outcome) : Bool :=
  o.status == .passed

/-- A module whose tests have no result. -/
structure ModuleError where
  package : String
  path : Path
  error : TestError
deriving DecidableEq

/-- What a run has found so far. -/
structure Summary where
  outcomes : List Outcome := []
  errors : List ModuleError := []
  /-- The number of modules without tests. -/
  untested : Nat := 0
  /-- The time of all outcomes in milliseconds. -/
  millis : Nat := 0
deriving DecidableEq

namespace Summary

def addOutcome (s : Summary) (o : Outcome) : Summary :=
  { s with outcomes := s.outcomes ++ [o], millis := s.millis + o.millis }

def addError (s : Summary) (e : ModuleError) : Summary :=
  { s with errors := s.errors ++ [e] }

def addUntested (s : Summary) : Summary :=
  { s with untested := s.untested + 1 }

/-- The number of outcomes that passed. -/
def passed (s : Summary) : Nat :=
  s.outcomes.countP Outcome.passed

/-- The number of outcomes that did not pass. -/
def failed (s : Summary) : Nat :=
  s.outcomes.length - s.passed

/-- No module failed, and none was without a result. -/
def allPassed (s : Summary) : Bool :=
  s.failed == 0 && s.errors.isEmpty

end Summary

namespace TestRun

/-- The test command for a library root and a script, both as they are printed.  The library root is
filled in first. -/
def commandLine (command : List String) (lib script : Path) : List String :=
  command.map fun arg =>
    Text.replace scriptPlaceholder script.display (Text.replace libPlaceholder lib.display arg)

/-- Whether a module is to be run: its name contains the filter, if there is one. -/
def isSelected (filter : Option String) (m : Module) : Bool :=
  match filter with
  | none => true
  | some piece => Text.contains piece m.name

/-- Runs the tests of one module and adds what came of it.  The runner is not called for a module
without tests. -/
def runModule {μ : Type → Type} [Monad μ] (runner : Script → Path → μ (Except TestError Finish))
    (summary : Summary) (m : Module) : μ Summary :=
  match Script.ofModule? m with
  | none => pure summary.addUntested
  | some script => do
    match ← runner script m.libraryRoot with
    | .ok finish =>
      pure (summary.addOutcome {
        package := script.package
        path := m.path
        subtests := script.subtests.length
        status := finish.status
        millis := finish.millis })
    | .error error => pure (summary.addError { package := m.name, path := m.path, error })

/-- Runs the tests of the selected modules in order. -/
def runAll {μ : Type → Type} [Monad μ] (runner : Script → Path → μ (Except TestError Finish))
    (filter : Option String) (modules : List Module) : μ Summary :=
  (modules.filter (isSelected filter)).foldlM (runModule runner) {}

end TestRun

end MarkerDoc
