import MarkerDoc.Command
import MarkerDoc.Shell.Eval

/-!
# A host for test scripts

Test commands are run on a machine of their own, which starts with the disk of the session and hands
it back.  A command has ended by the time it is started, unless it used up its steps; then it seems
to run on, and time passes only while it is waited for.
-/

namespace MarkerDoc.Shell

/-- What stands in the name of a temporary file for the characters that are chosen at random. -/
def anyName : String := "000000"

/-- The permissions of places that do not have the usual ones. -/
def startModes : List (List String × Nat) :=
  [(["tmp", "hashdoc-" ++ anyName ++ ".t"], 0o600), (["tmp"], 0o1777)]

/-- A disk on which the installed programs are found as files. -/
def withPrograms (disk : Disk) : Disk :=
  let names := Utility.shells ++ Utility.programs.map (·.1)
  Machine.programDirs.foldl (fun disk dir =>
    let files := names.foldl (fun inside name =>
      inside.set name (.file "\x7fELF".toUTF8)) (match disk.top.get? dir with
      | some (.dir inside) => inside
      | _ => .nil)
    { disk with top := disk.top.modifyAt (fun _ => files) dir }) disk

/-- The machine on which a test command starts: nothing can be read, and both outputs are
collected. -/
def startMachine (disk : Disk) : Machine :=
  let m : Machine :=
    { disk, modes := startModes, cwd := disk.cwd
      streams := #[.nothing, .holding "", .holding ""], channels := [(0, 0), (1, 1), (2, 2)] }
  let exported (m : Machine) (name value : String) : Machine :=
    m.put { name, value := some value, exported := true }
  exported (exported (exported m
    "PATH" "/usr/local/sbin:/usr/local/bin:/usr/sbin:/usr/bin:/sbin:/bin")
    "HOME" "/root") "PWD" m.workingPath

/-- Whether a name stands for an installed program. -/
def isInstalled (d : Disk) (program : String) : Bool :=
  match Utility.lookUp (startMachine d) program with
  | .program _ | .shell => true
  | _ => false

/-- Why a program cannot be started, if it cannot.  A name without a directory is looked up among
the installed programs.  No other file, and no directory, can be started. -/
def startError? (d : Disk) (command : List String) (program : String) : Option SpawnError :=
  if command.any fun arg => arg.toList.contains (Char.ofNat 0) then some .nulInArgument
  else if isInstalled d program then none
  else if program = "" then some (.file .notFound)
  else
    let path := if Text.contains "/" program then program else "/bin/" ++ program
    match (withPrograms d).entry ⟨path⟩ with
    | .ok _ => some (.file .permissionDenied)
    | .error cause => some (.file cause)

/-- Runs a command with its arguments, and the jobs that it leaves behind. -/
def runCommand (program : String) (args : List String) : Act Ending := do
  let ending ← match Utility.lookUp (← get) program with
    | .shell => runShell stepLimit program args
    | _ => do pure (Ending.done (← external stepLimit (program :: args)))
  runJobs stepLimit
  return ending

/-- How a command ended, if it did. -/
def exitOf : Ending → Option Exit
  | .spent => none
  | .killed _ => some .signal
  | ending => some (.code (ending.status % 256))

/-- Makes an empty file in the directory for temporary files. -/
def createTemp (lead tail : String) : StateM Session (Except FileError Path) := do
  let session ← get
  let file : Path := ⟨"/tmp/" ++ lead ++ anyName ++ tail⟩
  match session.disk.write file .empty with
  | .error cause => pure (.error cause)
  | .ok disk =>
    set { session with disk }
    pure (.ok file)

def writeFile (file : Path) (content : ByteArray) : StateM Session (Except FileError Unit) := do
  let session ← get
  match session.disk.write file content with
  | .error cause => pure (.error cause)
  | .ok disk =>
    set { session with disk }
    pure (.ok ())

/-- Runs a command to its end, and adds what it printed to the session. -/
def spawn (program : String) (args : List String) :
    StateM Session (Except SpawnError (Option Exit)) := do
  let session ← get
  let program := Bytes.ofText program
  let args := args.map Bytes.ofText
  match startError? session.disk (program :: args) program with
  | some cause => pure (.error cause)
  | none =>
    let start := startMachine (withPrograms session.disk)
    let (ending, m) := (runCommand program args).run start
    let left := { session with disk := { m.disk with cwd := session.disk.cwd } }
    set ((left.print (Bytes.toText (m.held 1))).complain (Bytes.toText (m.held 2)))
    pure (.ok (exitOf ending))

/-- The host that runs test commands on a machine.  A command that never ends is taken for stopped
where there is no limit on its time. -/
def host : Host (StateM Session) where
  Child := Option Exit
  createTemp := createTemp
  write := writeFile
  remove file := modify fun session => { session with disk := session.disk.remove file }
  spawn := spawn
  wait child := pure (.ok (child.getD .signal))
  tryWait child := pure (.ok child)
  kill _ := pure ()
  sleep _ := pure 0
  clock := pure 0

end MarkerDoc.Shell
