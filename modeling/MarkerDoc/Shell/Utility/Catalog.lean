import MarkerDoc.Shell.Awk.Run
import MarkerDoc.Shell.Condition
import MarkerDoc.Shell.Signal
import MarkerDoc.Shell.Utility.Calendar
import MarkerDoc.Shell.Utility.Checksum
import MarkerDoc.Shell.Utility.Columns
import MarkerDoc.Shell.Utility.Diff
import MarkerDoc.Shell.Utility.Find
import MarkerDoc.Shell.Utility.Grep
import MarkerDoc.Shell.Utility.Sed
import MarkerDoc.Shell.Utility.Sort
import MarkerDoc.Shell.Utility.Tables

/-!
# The installed programs

The programs that can be started by name, and how names are looked up.
-/

namespace MarkerDoc.Shell.Utility

/-- Sets variables for another program. -/
def env (call : Caller) (args : List String) : Act Nat := do
  match Options.readFront "iu:0C:" [("ignore-environment", 'i'), ("unset", 'u'), ("chdir", 'C')]
      args with
  | .error e => failWith ("env: " ++ e) 125
  | .ok o =>
    let before ← get
    let operands := if o.operands.head? = some "-" then o.operands.drop 1 else o.operands
    if o.has 'i' || o.operands.head? = some "-" then
      modify fun m => { m with bindings := m.bindings.filter fun v => !v.exported }
    for name in o.values 'u' do
      modify (·.unset name)
    let settings := operands.takeWhile fun a => a.toList.contains '=' && !Text.startsWith "=" a
    for s in settings do
      let name := String.ofList (s.toList.takeWhile (· != '='))
      let value := String.ofList (s.toList.drop (name.length + 1))
      modify (·.put { name, value := some value, exported := true })
    let status ← match operands.drop settings.length with
      | [] => do
        let ending := if o.has '0' then String.ofList [Char.ofNat 0] else "\n"
        say (String.join ((← get).environment.map fun (name, value) =>
          name ++ "=" ++ value ++ ending))
        pure 0
      | command => call command
    modify fun m => { m with toContext := before.toContext }
    return status

/-- Runs another program for a limited time. -/
def timeout (call : Caller) (args : List String) : Act Nat := do
  match Options.readFront "s:k:v" [("signal", 's'), ("kill-after", 'k'), ("preserve-status", 'v'),
    ("foreground", 'v')] args with
  | .error e => failWith ("timeout: " ++ e) 125
  | .ok o =>
    match o.operands with
    | limit :: command =>
      match duration? limit with
      | none => failWith ("timeout: invalid time interval " ++ inQuotes limit) 125
      | some limit =>
        if command.isEmpty then failWith "timeout: missing operand" 125
        else
          let start := (← get).clock
          let status ← call command
          let m ← get
          if limit != 0 && start + limit < m.clock then
            set { m with clock := start + limit }
            let signal? := (o.value? 's').bind fun s =>
              Signal.number? ((Text.stripStart? "SIG" s).getD s)
            let kills := signal? == some 9
            return if kills then 137 else 124
          else return status
    | [] => failWith "timeout: missing operand" 125

/-- Runs another program after dropping options of its own. -/
def plainly (program letters : String) (call : Caller) (args : List String) : Act Nat := do
  match Options.readFront letters [] args with
  | .error e => failWith (program ++ ": " ++ e) 125
  | .ok o => if o.operands.isEmpty then return 0 else call o.operands

/-- Prints the path of the working directory. -/
def pwd (_ : List String) : Act Nat := do
  say ((← get).workingPath ++ "\n")
  return 0

/-- Tests a condition that ends with a closing bracket. -/
def bracket (complainAbout : String → Act Unit) (more : Bool) (args : List String) :
    Act Nat := do
  if args.getLast?.any (Text.startsWith "]") then
    testCondition complainAbout "[" more args.dropLast
  else
    complainAbout "[: missing ]"
    return 2

/-- Shows the terminal, of which there is none. -/
def tty (_ : List String) : Act Nat := do
  say "not a tty\n"
  return 1

/-- Prints a line. -/
def constantly (text : String) (_ : List String) : Act Nat := do
  say (text ++ "\n")
  return 0

/-- Gives files an owner; there is only one. -/
def owned (program : String) (args : List String) : Act Nat :=
  withOptions program "RvcfhHLP" [("recursive", 'R'), ("verbose", 'v')] 1 args fun o => do
    match o.operands with
    | [] => missingOperand program
    | [owner] => failWith (program ++ ": missing operand after " ++ inQuotes owner) 1
    | _ :: files => forOperands files fun file => do
        match (← get).kind file with
        | .ok _ => return true
        | .error e =>
          refuse (program ++ ": cannot access " ++ inQuotes file ++ ": " ++ reason e)

/-- Sends signals to jobs. -/
def killProgram (_ : List String) : Act Nat :=
  failWith "kill: No such process" 1

abbrev Program := Caller → List String → Act Nat

/-- A program that starts no others. -/
def alone (run : List String → Act Nat) : Program := fun _ => run

/-- The installed programs that start no others. -/
def singlePrograms : List (String × (List String → Act Nat)) :=
  [("[", bracket complain true), ("arch", constantly "x86_64"),
    ("base32", printable "base32" encode32 decode32?),
    ("base64", printable "base64" encode64 decode64?),
    ("basename", basename), ("cat", cat), ("chgrp", owned "chgrp"), ("chmod", chmod),
    ("chown", owned "chown"), ("cksum", cksum), ("cmp", cmp),
    ("comm", comm), ("cp", cp), ("cut", cut), ("date", date), ("dd", dd), ("diff", diff),
    ("dirname", dirname), ("echo", echoProgram), ("egrep", grepWith ['E']), ("expand", expand),
    ("expr", expr), ("factor", factor), ("false", fun _ => return 1), ("fgrep", grepWith ['F']),
    ("fold", fold), ("grep", grep), ("groups", constantly "root"), ("head", head),
    ("hostname", constantly "localhost"), ("id", id), ("install", install),
    ("join", join),
    ("kill", killProgram), ("ln", ln), ("ls", ls), ("md5sum", digests "md5sum" Checksum.md5),
    ("mkdir", mkdir), ("mktemp", mktemp), ("mv", mv), ("nl", nl), ("nproc", constantly "1"),
    ("od", od), ("paste", paste), ("printenv", printenv), ("printf", printf .program complain),
    ("pwd", pwd), ("readlink", readlink), ("realpath", realpath), ("rev", rev), ("rm", rm),
    ("rmdir", rmdir), ("sed", sed), ("seq", seq), ("sha1sum", digests "sha1sum" Checksum.sha1),
    ("sha224sum", digests "sha224sum" Checksum.sha224),
    ("sha256sum", digests "sha256sum" Checksum.sha256),
    ("sha384sum", digests "sha384sum" Checksum.sha384),
    ("sha512sum", digests "sha512sum" Checksum.sha512), ("shuf", shuf), ("sleep", sleep),
    ("sort", sort), ("split", split), ("stat", stat), ("sum", sum), ("sync", fun _ => return 0),
    ("tac", tac), ("tail", tail), ("tee", tee), ("test", testCondition complain "test" true),
    ("touch", touch), ("tr", tr),
    ("true", fun _ => return 0), ("truncate", truncate), ("tsort", tsort), ("tty", tty),
    ("uname", uname), ("unexpand", unexpand),
    ("uniq", uniq), ("unlink", unlink), ("wc", wc), ("whoami", constantly "root"), ("yes", yes)]

/-- The installed programs that may start others. -/
def callingPrograms : List (String × Program) :=
  [("awk", awk), ("env", env), ("find", find), ("mawk", awk), ("nice", plainly "nice" "n:"),
    ("nohup", plainly "nohup" ""), ("setsid", plainly "setsid" "cfw"),
    ("stdbuf", plainly "stdbuf" "i:o:e:"), ("timeout", timeout), ("xargs", xargs)]

/-- The installed programs that do not look up names. -/
def plainPrograms : List (String × Program) :=
  (singlePrograms.map fun (name, run) => (name, alone run)) ++ callingPrograms

/-- The names under which the shell itself is installed. -/
def shells : List String :=
  ["sh", "dash"]

/-- Whether a name stands for an installed program. -/
def isInstalled (name : String) : Bool :=
  name == "which" || shells.contains name || plainPrograms.any (·.1 == name)

/-- The name of the installed program at a path. -/
def installedAt? (path : String) : Option String :=
  (Machine.programDirs.findSome? fun dir =>
    Text.stripStart? ("/" ++ Text.joinWith "/" dir ++ "/") path).filter isInstalled

/-- Whether a path is one of a file that can be run. -/
def isRunnable (m : Machine) (path : String) : Bool :=
  (installedAt? path).isSome ||
    match m.kind path, m.place? path with
    | .ok .file, some place => m.modeAt place &&& 0o111 != 0
    | _, _ => false

/-- The directories in which programs are looked for. -/
def searchDirs (m : Machine) : List String :=
  Text.splitOn ":" ((m.get? "PATH").getD "/usr/bin:/bin")

/-- The paths of the programs that a name stands for. -/
def pathsOf (m : Machine) (name : String) : List String :=
  let paths := if Text.contains "/" name then [name]
    else (searchDirs m).map fun dir => if dir = "" then name else pathIn dir name
  paths.filter (isRunnable m)

/-- The path of the program that a name stands for. -/
def pathOf? (m : Machine) (name : String) : Option String :=
  (pathsOf m name).head?

/-- Shows the paths of programs. -/
def which (args : List String) : Act Nat := do
  match Options.read "as" [] args with
  | .error _ => failWith "Usage: /usr/bin/which [-as] args" 2
  | .ok o =>
    let m ← get
    let found := o.operands.map fun name =>
      if o.has 'a' then pathsOf m name else (pathOf? m name).toList
    if !o.has 's' then say (unlines found.flatten)
    return if found.isEmpty || found.any List.isEmpty then 1 else 0

/-- The installed programs. -/
def programs : List (String × Program) :=
  ("which", alone which) :: plainPrograms

/-- The status of a program whose input is closed. -/
def unreadStatus (name : String) : Nat :=
  if ["awk", "cmp", "diff", "egrep", "fgrep", "grep", "mawk", "sort"].contains name then 2
  else if name = "sed" then 4 else 1

/-- What a name stands for. -/
inductive Found where
  | program (run : Program)
  | shell
  /-- A file that can be run, with its text. -/
  | script (path text : String)
  | denied
  | missing

def installed? (name : String) : Option Found :=
  if shells.contains name then some .shell
  else (programs.find? (·.1 == name)).map fun (_, run) => .program run

/-- What a path stands for. -/
def atPath (m : Machine) (path : String) : Found :=
  match (installedAt? path).bind installed? with
  | some found => found
  | none =>
    match m.kind path with
    | .ok _ =>
      if isRunnable m path then .script path ((m.fileText path).toOption.getD "") else .denied
    | .error .permissionDenied => .denied
    | .error _ => .missing

/-- What the name of a command stands for. -/
def lookUp (m : Machine) (name : String) : Found :=
  if Text.contains "/" name then atPath m name
  else
    match pathOf? m name with
    | some path => atPath m path
    | none =>
      let isThere := name != "" && (searchDirs m).any fun dir =>
        dir != "" && (atPath m (pathIn dir name)) matches .denied
      if isThere then .denied else .missing

end MarkerDoc.Shell.Utility
