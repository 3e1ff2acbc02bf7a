import MarkerDoc.Disk
import MarkerDoc.Shell.Script

/-!
# The machine that scripts run on

What a script can change falls into two parts.  The world is shared by everything that runs: the
disk, the open streams and the jobs that were put aside.  The context belongs to one shell: its
variables, arguments and channels.  A part of a script that runs on its own works in a copy of the
context, and what it does to the world stays.

Commands run one after the other.  The commands of a pipe do so as well, each reading what the one
before it has written, and a job in the background runs when it is waited for.
-/

namespace MarkerDoc.Shell

structure Variable where
  name : String
  value : Option String
  exported : Bool := false
  constant : Bool := false

/-- What a channel is connected to. -/
inductive Stream where
  /-- Nothing can be read, and what is written is lost. -/
  | nothing
  /-- Text to be read; the flag says whether it belongs to a file, where reading can go back. -/
  | reading (rest : List Char) (isFile : Bool)
  /-- A file at a place that is written from a position on, or at its end if there is none. -/
  | writing (place : List String) (position : Option Nat)
  /-- A file at a place that is read and written from a position on. -/
  | sharing (place : List String) (position : Nat)
  /-- Text that is collected. -/
  | holding (text : String)
  /-- The same text over and over, without end. -/
  | endless (unit : String)
  /-- Nothing can be written because there is no room. -/
  | full
deriving DecidableEq

/-- What one shell has to itself. -/
structure Context where
  cwd : List String := []
  bindings : List Variable := []
  functions : List (String × Command) := []
  /-- The name under which the script was started. -/
  name : String := "sh"
  args : List String := []
  status : Nat := 0
  /-- The letters of the options that are switched on. -/
  flags : List Char := []
  /-- The number of loops around the running command. -/
  loops : Nat := 0
  /-- The numbers of the streams of the open channels. -/
  channels : List (Nat × Nat) := []
  /-- What is done on a signal, or at the end. -/
  traps : List (String × String) := []
  pid : Nat := 4242
  /-- The number of shells between this one and the one with the number. -/
  depth : Nat := 0
  /-- The job that was put aside last. -/
  lastJob : Option Nat := none
  /-- The status of the last command whose output was filled into the running one. -/
  outputStatus : Nat := 0
  line : Nat := 1
  /-- For every function around the running command, the variables that it made its own. -/
  ownVariables : List (List (String × Option Variable)) := []
  umask : Nat := 0o22
  /-- The argument in which options are looked for next, counted from one. -/
  optionIndex : Nat := 1
  /-- The place in the argument before that one at which options are looked for. -/
  optionOffset : Option Nat := none
  /-- Whether the outcome of the running command is only asked about. -/
  asked : Bool := false
  /-- The words that stand for a text, in the order in which they are shown. -/
  aliases : List (String × String) := []
  /-- The programs whose place is remembered, in the order in which they are shown. -/
  tracked : List String := []
  /-- What is running a text or a file, where messages name it. -/
  running : Option String := none
  /-- The number of functions around the running command. -/
  calls : Nat := 0

/-- A command that runs in the background. -/
structure Job where
  pid : Nat
  body : Command
  context : Context

/-- What everything that runs has in common. -/
structure World where
  disk : Disk
  /-- The permissions of files and directories that do not have the usual ones. -/
  modes : List (List String × Nat) := []
  /-- The links by name, with their targets. -/
  links : List (List String × String) := []
  streams : Array Stream := #[]
  nextPid : Nat := 4243
  /-- The numbers of the shells that are running. -/
  shells : List Nat := [4242]
  jobs : List Job := []
  /-- The status of jobs that have ended. -/
  finished : List (Nat × Nat) := []
  /-- The signals that were sent to shells and are not dealt with. -/
  signals : List (Nat × Nat) := []
  /-- The time that has passed in milliseconds. -/
  clock : Nat := 0
  /-- Whether some output could not be written. -/
  lost : Bool := false
  /-- Whether something was read from a channel that is closed. -/
  unread : Bool := false

structure Machine extends World, Context

/-- How a command ended. -/
inductive Ending where
  | done (status : Nat)
  /-- The whole script ends with the status. -/
  | exited (status : Nat)
  /-- The whole script ends because of a fault. -/
  | faulted
  /-- The running function ends with the status. -/
  | returned (status : Nat)
  /-- The innermost loop is left, and so are `outer` loops around it; the last of them may go on
  with its next round. -/
  | left (again : Bool) (outer : Nat)
  /-- The shell was stopped by a signal. -/
  | killed (signal : Nat)
  /-- The script took too many steps. -/
  | spent
deriving DecidableEq

/-- A step that changes the machine. -/
abbrev Act := StateM Machine

/-- The reason for an error as programs give it. -/
def reason : FileError → String
  | .notFound => "No such file or directory"
  | .permissionDenied => "Permission denied"
  | .alreadyExists => "File exists"
  | .notADirectory => "Not a directory"
  | .isADirectory => "Is a directory"
  | .nameTooLong => "File name too long"
  | .nulInName | .invalidText => "Invalid argument"

def diskPath (path : String) : Path := ⟨path⟩

/-- The place of a name in tables that are shown in no other order. -/
def bucket (size : Nat) (name : String) : Nat :=
  let codes := name.toList.map Char.toNat
  (codes.headD 0 * 16 + codes.foldl (· + ·) 0) % 32768 % size

namespace Machine

/-- Gives a stream back what belongs to everything, and keeps the context. -/
def after (m sub : Machine) : Machine :=
  { m with toWorld := sub.toWorld }

/-- The disk as seen from the working directory. -/
def here (m : Machine) : Disk :=
  { m.disk with cwd := m.cwd }

/-! ## Variables -/

def lookUp? (m : Machine) (name : String) : Option Variable :=
  m.bindings.find? (·.name == name)

def get? (m : Machine) (name : String) : Option String :=
  (m.lookUp? name).bind (·.value)

/-- Puts a variable in place of the one with its name, or in front of all others. -/
def put (m : Machine) (v : Variable) : Machine :=
  { m with
    bindings :=
      if m.bindings.any (·.name == v.name) then
        m.bindings.map fun w => if w.name == v.name then v else w
      else v :: m.bindings }

/-- Gives a variable a value.  Looking for options starts again where it is told to. -/
def set (m : Machine) (name value : String) : Machine :=
  let old := (m.lookUp? name).getD { name, value := none }
  let exported := old.exported || m.flags.contains 'a'
  let m := m.put { old with value := some value, exported }
  if name = "OPTIND" then
    { m with optionIndex := max 1 (value.toNat?.getD 1), optionOffset := none }
  else m

def unset (m : Machine) (name : String) : Machine :=
  { m with bindings := m.bindings.filter (·.name != name) }

/-- Puts variables back as they were; a hyphen stands for the options. -/
def restore (m : Machine) (old : List (String × Option Variable)) : Machine :=
  old.foldl (fun m (name, v?) =>
    match v? with
    | some v => if name = "-" then { m with flags := (v.value.getD "").toList } else m.put v
    | none => m.unset name) m

def isConstant (m : Machine) (name : String) : Bool :=
  (m.lookUp? name).any (·.constant)

/-- Arranges the variables in the order in which other programs get to see them. -/
def arranged (m : Machine) : Machine :=
  { m with
    bindings := m.bindings.mergeSort fun v w => bucket 39 w.name ≤ bucket 39 v.name }

/-- The variables that other programs get to see. -/
def environment (m : Machine) : List (String × String) :=
  m.bindings.reverse.filterMap fun v =>
    if v.exported then v.value.map fun value => (v.name, value) else none

/-- The characters at which fields are divided. -/
def separators (m : Machine) : List Char :=
  match m.get? "IFS" with
  | some s => s.toList
  | none => [' ', '\t', '\n']

/-! ## Streams -/

def streamId? (m : Machine) (channel : Nat) : Option Nat :=
  (m.channels.find? (·.1 == channel)).map (·.2)

def stream? (m : Machine) (channel : Nat) : Option Stream :=
  (m.streamId? channel).bind (m.streams[·]?)

def setStream (m : Machine) (id : Nat) (s : Stream) : Machine :=
  { m with streams := m.streams.setIfInBounds id s }

/-- Adds a stream. -/
def addStream (m : Machine) (s : Stream) : Nat × Machine :=
  (m.streams.size, { m with streams := m.streams.push s })

def connect (m : Machine) (channel id : Nat) : Machine :=
  { m with channels := (channel, id) :: m.channels.filter (·.1 != channel) }

def disconnect (m : Machine) (channel : Nat) : Machine :=
  { m with channels := m.channels.filter (·.1 != channel) }

/-- The text that a stream has collected. -/
def held (m : Machine) (id : Nat) : String :=
  match m.streams[id]? with
  | some (.holding text) => text
  | _ => ""

/-- The bytes of a file at a place, as text. -/
def contentAt? (m : Machine) (place : List String) : Option String :=
  match m.disk.top.get? place with
  | some (.file content) => some (Bytes.ofArray content)
  | _ => none

/-- Puts a file at a place. -/
def putFile (m : Machine) (place : List String) (text : String) : Machine :=
  let name := place.getLast?.getD ""
  let top := m.disk.top.modifyAt (·.set name (.file (Bytes.toArray text))) place.dropLast
  { m with disk := { m.disk with top } }

/-- Writes a text into a file from a position on. -/
def overwrite (old text : String) (position : Nat) : String :=
  let front := padRight position (Char.ofNat 0) (String.ofList (old.toList.take position))
  front ++ text ++ String.ofList (old.toList.drop (position + text.length))

/-- Writes to a channel; the flag says whether it is open for writing. -/
def write (m : Machine) (channel : Nat) (text : String) : Bool × Machine :=
  match m.streamId? channel with
  | none => (false, m)
  | some id =>
    match m.streams[id]? with
    | some .nothing => (true, m)
    | some (.holding old) => (true, m.setStream id (.holding (old ++ text)))
    | some (.writing place position) =>
      match m.contentAt? place with
      | none => (true, m)
      | some old =>
        let at_ := position.getD old.length
        let text' := if at_ = old.length then old ++ text else overwrite old text at_
        let m := m.putFile place text'
        (true, m.setStream id (.writing place (position.map fun _ => at_ + text.length)))
    | some (.sharing place position) =>
      match m.contentAt? place with
      | none => (true, m)
      | some old =>
        let m := m.putFile place (overwrite old text position)
        (true, m.setStream id (.sharing place (position + text.length)))
    | some (.endless _) => (true, m)
    | _ => (false, m)

/-- The text that can be read on a stream, as far as it ends. -/
def left (m : Machine) : Stream → List Char
  | .reading rest _ => rest
  | .sharing place position => ((m.contentAt? place).getD "").toList.drop position
  | _ => []

/-- Leaves a text to be read on a channel, which is the end of what was there to be read. -/
def leave (m : Machine) (channel : Nat) (rest : List Char) : Machine :=
  match m.streamId? channel with
  | none => m
  | some id =>
    match m.streams[id]? with
    | some (.reading _ isFile) => m.setStream id (.reading rest isFile)
    | some (.sharing place _) =>
      let size := ((m.contentAt? place).getD "").length
      m.setStream id (.sharing place (size - rest.length))
    | _ => m

/-! ## Files -/

/-- What a path leads to. -/
inductive Kind where
  | file
  | dir
  | device
  | pipe
deriving DecidableEq

/-- The channel that a device path stands for. -/
def deviceChannel? (path : String) : Option Nat :=
  match path with
  | "/dev/stdin" => some 0
  | "/dev/stdout" => some 1
  | "/dev/stderr" => some 2
  | _ => (Text.stripStart? "/dev/fd/" path).bind String.toNat?

/-- Devices that are always empty or full. -/
def isDevice (path : String) : Bool :=
  ["/dev/null", "/dev/zero", "/dev/full", "/dev/random", "/dev/urandom", "/dev/tty"].contains path

/-- Bytes without an order that could be seen at a glance. -/
def noise : Nat → Nat → List Char
  | 0, _ => []
  | size + 1, seed =>
    let next := (seed * 1103515245 + 12345) % Nat.pow 2 31
    Char.ofNat (next / Nat.pow 2 16 % 256) :: noise size next

/-- What a device gives over and over: zeros, noise or nothing. -/
def deviceUnit (path : String) : String :=
  if path = "/dev/zero" || path = "/dev/full" then String.ofList [Char.ofNat 0]
  else if path = "/dev/random" || path = "/dev/urandom" then String.ofList (noise 4096 42)
  else ""

/-- How much of a text is asked for. -/
inductive Demand where
  | characters (count : Nat)
  | lines (count : Nat)
  | everything

/-- As much as is asked for of a text that is repeated without end. -/
def repeated (unit : String) (demand : Demand) : String :=
  let enough (size : Nat) : Nat := size / unit.length + 1
  let count := match demand with
    | .characters count => enough count
    | .lines count => if Text.contains "\n" unit then count else enough (Nat.pow 2 20)
    | .everything => enough (Nat.pow 2 20)
  if unit = "" then "" else String.join (List.replicate count unit)

def Kind.ofStream : Stream → Kind
  | .nothing | .endless _ | .full => .device
  | .reading _ isFile => if isFile then .file else .pipe
  | .writing .. | .sharing .. => .file
  | .holding _ => .pipe

/-- What a path leads to, if to anything. -/
def kind (m : Machine) (path : String) : Except FileError Kind :=
  if isDevice path then .ok .device
  else
    match deviceChannel? path with
    | some channel =>
      match m.stream? channel with
      | some s => .ok (Kind.ofStream s)
      | none => .error .notFound
    | none =>
      match m.here.entry (diskPath path) with
      | .ok (.file _) => .ok .file
      | .ok (.dir _) => .ok .dir
      | .error e => .error e

def isDir (m : Machine) (path : String) : Bool :=
  m.kind path matches .ok .dir

def exists? (m : Machine) (path : String) : Bool :=
  m.kind path matches .ok _

/-- The place of a path that leads to something. -/
def place? (m : Machine) (path : String) : Option (List String) :=
  (m.here.locate (diskPath path)).toOption

/-- The directories that hold programs. -/
def programDirs : List (List String) :=
  [["bin"], ["usr", "bin"]]

/-- The permissions at a place.  Files can usually not be run unless they are programs. -/
def modeAt (m : Machine) (place : List String) : Nat :=
  match m.modes.find? (·.1 == place) with
  | some (_, mode) => mode
  | none =>
    match m.disk.top.get? place with
    | some (.file _) => if programDirs.contains place.dropLast then 0o755 else 0o644
    | _ => 0o755

def setMode (m : Machine) (place : List String) (mode : Nat) : Machine :=
  { m with modes := (place, mode) :: m.modes.filter (·.1 != place) }

/-- Forgets what is known about a place and everything below it. -/
def forget (m : Machine) (place : List String) : Machine :=
  let outside (p : List String) : Bool := p.take place.length != place
  { m with modes := m.modes.filter fun (p, _) => outside p
           links := m.links.filter fun (p, _) => outside p }

/-- Takes away what is at a place. -/
def removeAt (m : Machine) (place : List String) : Machine :=
  let top := m.disk.top.modifyAt (·.erase (place.getLast?.getD "")) place.dropLast
  { m.forget place with disk := { m.disk with top } }

/-- Puts an entry at a place whose directory exists. -/
def putAt (m : Machine) (place : List String) (entry : Entry) : Machine :=
  let top := m.disk.top.modifyAt (·.set (place.getLast?.getD "") entry) place.dropLast
  { m with disk := { m.disk with top } }

/-- The place where a path would put a new entry. -/
def newPlace (m : Machine) (path : String) : Except FileError (List String) := do
  match m.here.locate (diskPath path) with
  | .ok place => pure place
  | .error .notFound =>
    let pieces := Text.dropEndWhile (· == "") (Text.splitOn "/" path)
    let name := pieces.getLast?.getD ""
    if name = "" then throw .notFound
    let front := Text.joinWith "/" pieces.dropLast
    let front := if pieces.length = 1 then "." else if front = "" then "/" else front
    let parent ← m.here.locate ⟨front⟩
    match m.disk.top.get? parent with
    | some (.dir _) => pure (parent ++ [name])
    | _ => throw .notADirectory
  | .error e => throw e

/-- The text of a file, as far as it is asked for. -/
def fileTextUpTo (m : Machine) (demand : Demand) (path : String) : Except FileError String :=
  if isDevice path then .ok (repeated (deviceUnit path) demand)
  else
    match m.here.readBytes (diskPath path) with
    | .ok bytes => .ok (Bytes.ofArray bytes)
    | .error e => .error e

def fileText (m : Machine) (path : String) : Except FileError String :=
  m.fileTextUpTo .everything path

/-- Writes a file by its path, with the usual permissions if it is new. -/
def writeFile (m : Machine) (path text : String) : Except FileError Machine :=
  if isDevice path then .ok m
  else do
    let isNew := !m.exists? path
    let disk ← m.here.write (diskPath path) (Bytes.toArray text)
    let m := { m with disk := { disk with cwd := m.disk.cwd } }
    let mode := 0o666 &&& (0o777 ^^^ (m.umask &&& 0o777))
    if isNew && mode != 0o644 then
      match m.place? path with
      | some place => pure (m.setMode place mode)
      | none => pure m
    else pure m

/-- The path of the working directory. -/
def workingPath (m : Machine) : String :=
  "/" ++ Text.joinWith "/" m.cwd

/-- The names in a directory, in order. -/
def namesIn (m : Machine) (path : String) : List String :=
  let rec names : Listing → List String
    | .nil => []
    | .file name _ rest => name :: names rest
    | .dir name _ rest => name :: names rest
  match m.here.entry (diskPath path) with
  | .ok (.dir inside) => (names inside).mergeSort fun a b => decide (a ≤ b)
  | _ => []

/-! ## Parameters -/

/-- The value of a parameter that stands for one text; all arguments together are none. -/
def parameter? (m : Machine) (name : String) : Option String :=
  match name with
  | "#" => some (toString m.args.length)
  | "?" => some (toString m.status)
  | "$" => some (toString m.pid)
  | "!" => m.lastJob.map toString
  | "-" => some (String.ofList (m.flags.reverse.filter Char.isAlpha))
  | _ =>
    match name.toNat? with
    | some 0 => some m.name
    | some (n + 1) => m.args[n]?
    | none => m.get? name

/-- What stands between arguments that are put together into one text. -/
def argumentSeparator (m : Machine) : String :=
  match m.get? "IFS" with
  | some s => String.ofList (s.toList.take 1)
  | none => " "

end Machine

/-! ## Steps of programs -/

/-- Writes to the output, and notes if that is not possible. -/
def say (text : String) : Act Unit :=
  modify fun m =>
    let (ok, m) := m.write 1 text
    if ok || text = "" then m else { m with lost := true }

/-- Writes a message about an error. -/
def complain (text : String) : Act Unit :=
  modify fun m => (m.write 2 (text ++ "\n")).2

/-- Ends with a message about an error. -/
def failWith (text : String) (status : Nat) : Act Nat := do
  complain text
  return status

/-- Takes what is left to read on a channel, as far as it is asked for if it has no end. -/
def takeUpTo (demand : Machine.Demand) (channel : Nat) : Act String := do
  let m ← get
  match m.stream? channel with
  | none =>
    set { m with unread := true }
    return ""
  | some (.endless unit) => return Machine.repeated unit demand
  | some s =>
    let rest := m.left s
    if !rest.isEmpty then set (m.leave channel [])
    return String.ofList rest

/-- Takes everything that is left to read on a channel. -/
def takeAll (channel : Nat) : Act String :=
  takeUpTo .everything channel

/-- Gives back what was read too much, where that is possible. -/
def giveBack (channel : Nat) (text : String) : Act Unit :=
  modify fun m =>
    match m.stream? channel with
    | some (.reading rest true) => m.leave channel (text.toList ++ rest)
    | some (.sharing place position) =>
      m.leave channel (text.toList ++ m.left (.sharing place position))
    | _ => m

/-- The text of a file, as far as it is asked for; a hyphen stands for the input. -/
def contentUpTo (demand : Machine.Demand) (path : String) : Act (Except FileError String) := do
  if path = "-" then return .ok (← takeUpTo demand 0)
  else
    match Machine.deviceChannel? path with
    | some channel => return .ok (← takeUpTo demand channel)
    | none => return (← get).fileTextUpTo demand path

/-- The text of a file; a hyphen stands for the input. -/
def contentOf (path : String) : Act (Except FileError String) :=
  contentUpTo .everything path

/-- Writes a text over and over to the output, as far as somebody may read it. -/
def sayForever (unit : String) : Act Unit :=
  modify fun m =>
    match m.streamId? 1, m.stream? 1 with
    | some id, some (.holding "") => m.setStream id (.endless unit)
    | _, _ => (m.write 1 (Machine.repeated unit .everything)).2

/-- The texts of some files with their names, as far as they are asked for, or the input if none are
named.  Files that cannot be read are complained about and left out; the flag says whether there
were none. -/
def contentsUpTo (demand : Machine.Demand) (complaint : String → FileError → String)
    (files : List String) : Act (List (String × String) × Bool) := do
  let files := if files.isEmpty then ["-"] else files
  let mut found := []
  let mut ok := true
  for file in files do
    match ← contentUpTo demand file with
    | .ok text => found := found ++ [(file, text)]
    | .error e =>
      let text := complaint file e
      if text != "" then complain text
      ok := false
  return (found, ok)

/-- The texts of some files with their names, or the input if none are named. -/
def contentsOf (complaint : String → FileError → String) (files : List String) :
    Act (List (String × String) × Bool) :=
  contentsUpTo .everything complaint files

/-! ## Names in messages -/

/-- Whether a character cannot be shown as it is. -/
def isHidden (c : Char) : Bool :=
  c.toNat < 32 || 127 ≤ c.toNat

/-- Whether a text would mean something else to a shell that read it. -/
def needsQuotes (s : String) : Bool :=
  let cs := s.toList
  cs.isEmpty || cs.head? = some '#' || cs.head? = some '~' || cs = [leftBrace] ||
    cs = [rightBrace] || cs.any fun c =>
      isHidden c || c == singleQuote || c == backquote || " !\"$&()*;<=>[^|?\\".toList.contains c

/-- How a character that cannot be shown is written. -/
def hiddenCode (c : Char) : String :=
  match c.toNat with
  | 7 => "\\a"
  | 8 => "\\b"
  | 9 => "\\t"
  | 10 => "\\n"
  | 11 => "\\v"
  | 12 => "\\f"
  | 13 => "\\r"
  | n => "\\" ++ padLeft 3 '0' (String.ofList (Nat.toDigits 8 n))

/-- A text as a shell would read it, in single quotes except for what they cannot hold; the flag
says whether codes are being written. -/
def quotedParts (inCodes : Bool) : List Char → String
  | [] => if inCodes then "'" else ""
  | c :: cs =>
    if isHidden c then (if inCodes then "" else "'$'") ++ hiddenCode c ++ quotedParts true cs
    else
      let lead := if inCodes then "''" else ""
      let shown := if c = singleQuote then "'\\''" else String.ofList [c]
      lead ++ shown ++ quotedParts false cs

/-- A name between quotes. -/
def inQuotes (s : String) : String :=
  let cs := s.toList
  let simple (c : Char) : Bool :=
    c.isAlphanum || c == singleQuote || " %+,-./:]_".toList.contains c
  if cs.contains singleQuote && cs.all simple then "\"" ++ s ++ "\""
  else
    let body := quotedParts false cs
    if cs.getLast?.any isHidden then "'" ++ body else "'" ++ body ++ "'"

/-- A name between quotes if it needs them. -/
def shownName (s : String) : String :=
  if needsQuotes s || s.toList.contains ':' then inQuotes s else s

/-- A complaint of a program about a file. -/
def bareComplaint (program : String) : String → FileError → String := fun file e =>
  program ++ ": " ++ file ++ ": " ++ reason e

/-- The usual complaint of a program about a file. -/
def plainComplaint (program : String) : String → FileError → String := fun file e =>
  bareComplaint program (shownName file) e

/-- The complaint of programs that only open files for reading. -/
def openComplaint (program : String) : String → FileError → String := fun file e =>
  match e with
  | .isADirectory => program ++ ": error reading " ++ inQuotes file ++ ": " ++ reason e
  | _ => program ++ ": cannot open " ++ inQuotes file ++ " for reading: " ++ reason e

/-- How programs start others: by their name and arguments. -/
abbrev Caller := List String → Act Nat

/-- Does something while a channel is connected to a stream, which is then looked at. -/
def withStream {α : Type} (channel : Nat) (s : Stream) (act : Act α) : Act (α × String) := do
  let before ← get
  let (id, m) := before.addStream s
  set (m.connect channel id)
  let a ← act
  let text := (← get).held id
  modify fun m => { m with channels := before.channels }
  return (a, text)

/-- Does something that reads a text. -/
def reading {α : Type} (text : String) (act : Act α) : Act α := do
  return (← withStream 0 (.reading text.toList false) act).1

/-- Does something whose output is collected. -/
def collecting {α : Type} (act : Act α) : Act (α × String) :=
  withStream 1 (.holding "") act

/-- A number with an optional sign. -/
def integer? (s : String) : Option Int :=
  let natural (cs : List Char) : Option Int :=
    if cs.all Char.isDigit then (String.ofList cs).toNat?.map fun n => (n : Int) else none
  match s.toList with
  | '-' :: cs => (natural cs).map fun n => -n
  | '+' :: cs => natural cs
  | cs => natural cs

end MarkerDoc.Shell
