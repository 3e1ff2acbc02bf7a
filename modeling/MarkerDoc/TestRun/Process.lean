import MarkerDoc.TestRun

/-!
# Running a test script

A test script is put into a temporary file, the test command is filled in and started, and its end
is waited for, at most as long as the settings allow.  The file is taken away again whatever
happened.

What the system does at each of these steps is left open: a host is a collection of actions in any
monad.  All times are in milliseconds.
-/

namespace MarkerDoc

/-- How a program ended: with a code, or because it was stopped. -/
inductive Exit where
  | code (n : Int)
  | signal
deriving DecidableEq

def Status.ofExit : Exit → Status
  | .code n => if n = 0 then .passed else .failed (some n)
  | .signal => .failed none

/-- What running a script asks of the system. -/
structure Host (μ : Type → Type) where
  /-- A program that was started. -/
  Child : Type
  /-- Makes a new file for a while, with a name that begins and ends as given. -/
  createTemp (lead tail : String) : μ (Except FileError Path)
  write (file : Path) (content : ByteArray) : μ (Except FileError Unit)
  remove (file : Path) : μ Unit
  spawn (program : String) (args : List String) : μ (Except SpawnError Child)
  /-- Waits until a program ends. -/
  wait (child : Child) : μ (Except FileError Exit)
  /-- How a program ended, if it has ended. -/
  tryWait (child : Child) : μ (Except FileError (Option Exit))
  kill (child : Child) : μ Unit
  /-- Sleeps for a time, and gives back by how much it was late. -/
  sleep (millis : Nat) : μ Nat
  clock : μ Nat

namespace Host

variable {μ : Type → Type} [Monad μ]

/-- How often a running program is looked at. -/
def pollInterval : Nat := 20

/-- Waits for a program as long as it may take, and stops it when the time is over. -/
def waitUntil (host : Host μ) (child : host.Child) (seconds elapsed : Nat) :
    μ (Except TestError Exit) := do
  match ← host.tryWait child with
  | .error cause => pure (.error (.io cause))
  | .ok (some exit) => pure (.ok exit)
  | .ok none =>
    if _ : seconds * 1000 ≤ elapsed then
      host.kill child
      let _ ← host.wait child
      pure (.error (.timeout seconds))
    else
      let late ← host.sleep pollInterval
      host.waitUntil child seconds (elapsed + (pollInterval + late))
termination_by seconds * 1000 - elapsed
decreasing_by
  unfold pollInterval
  omega

/-- Waits for a program, for a time or without limit. -/
def await (host : Host μ) (timeout : Option Nat) (child : host.Child) :
    μ (Except TestError Exit) := do
  match timeout with
  | none =>
    match ← host.wait child with
    | .error cause => pure (.error (.io cause))
    | .ok exit => pure (.ok exit)
  | some seconds => host.waitUntil child seconds 0

/-- Writes a script to a file and runs the test command on it. -/
def runFile (host : Host μ) (settings : TestSettings) (script : Script) (lib file : Path) :
    μ (Except TestError Exit) := do
  match ← host.write file script.source.toUTF8 with
  | .error cause => pure (.error (.io cause))
  | .ok () =>
    match TestRun.commandLine settings.command lib file with
    | [] => pure (.error (.runnerUnavailable "" .emptyCommand))
    | program :: args =>
      match ← host.spawn program args with
      | .error cause => pure (.error (.runnerUnavailable program (.spawn cause)))
      | .ok child => host.await settings.timeout? child

/-- Runs a script from a temporary file. -/
def runScript (host : Host μ) (settings : TestSettings) (script : Script) (lib : Path) :
    μ (Except TestError Exit) := do
  match ← host.createTemp "hashdoc-" ".t" with
  | .error cause => pure (.error (.io cause))
  | .ok file =>
    let result ← host.runFile settings script lib file
    host.remove file
    pure result

/-- Runs a script and takes the time. -/
def runner (host : Host μ) (settings : TestSettings) (script : Script) (lib : Path) :
    μ (Except TestError Finish) := do
  let start ← host.clock
  match ← host.runScript settings script lib with
  | .error cause => pure (.error cause)
  | .ok exit =>
    let stop ← host.clock
    pure (.ok { status := .ofExit exit, millis := stop - start })

end Host

end MarkerDoc
