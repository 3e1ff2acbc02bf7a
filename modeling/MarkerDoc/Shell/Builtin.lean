import MarkerDoc.Shell.Field
import MarkerDoc.Shell.Token
import MarkerDoc.Shell.Utility.Catalog

/-!
# Commands of the shell itself

The commands that work on the shell and therefore cannot be programs of their own.  Those that run
further commands are part of the evaluation.
-/

namespace MarkerDoc.Shell

open Utility (shellComplain)

/-- The commands of the shell that are not special. -/
def plainCommands : List String :=
  ["[", "alias", "bg", "cd", "chdir", "command", "echo", "false", "fg", "getopts", "hash", "jobs",
    "kill", "printf", "pwd", "read", "test", "true", "type", "ulimit", "umask", "unalias", "wait"]

/-- Whether a name is one of a command of the shell itself. -/
def isBuiltin (name : String) : Bool :=
  specialCommands.contains name || plainCommands.contains name

namespace Builtin

/-- Complains about a fault. -/
def fault (text : String) : Act Ending := do
  shellComplain text
  return .faulted

/-- The options in a group of letters, and the one that still needs an argument. -/
def letterGroup (letters : String) :
    List Char → Except String (List (Char × String) × Option Char)
  | [] => .ok ([], none)
  | c :: cs =>
    match Options.lookUp? letters.toList c with
    | none => .error ("Illegal option -" ++ String.ofList [c])
    | some false => do
      let (found, pending) ← letterGroup letters cs
      return ((c, "") :: found, pending)
    | some true =>
      if cs.isEmpty then .ok ([], some c) else .ok ([(c, String.ofList cs)], none)

/-- The options in front of the arguments of a command, and the arguments. -/
def options (letters : String) :
    List String → Except String (List (Char × String) × List String)
  | [] => .ok ([], [])
  | "--" :: rest => .ok ([], rest)
  | arg :: rest =>
    match arg.toList with
    | '-' :: c :: cs =>
      match letterGroup letters (c :: cs), rest with
      | .error e, _ => .error e
      | .ok (found, none), rest => do
        let (more, args) ← options letters rest
        return (found ++ more, args)
      | .ok (_, some c), [] => .error ("No arg for -" ++ String.ofList [c] ++ " option")
      | .ok (found, some c), value :: rest => do
        let (more, args) ← options letters rest
        return (found ++ (c, value) :: more, args)
    | _ => .ok ([], arg :: rest)

/-- Does something with the options and arguments of a command. -/
def withOptions (command letters : String) (args : List String)
    (act : List (Char × String) → List String → Act Ending) : Act Ending :=
  match options letters args with
  | .error e => fault (command ++ ": " ++ e)
  | .ok (given, args) => act given args

/-- A number that commands take, which is not negative and fits into 31 bits. -/
def count? (s : String) : Option Nat :=
  match integer? (Text.trim s) with
  | some n => if 0 ≤ n && n < Int.pow 2 31 then some n.toNat else none
  | none => none

/-- The status that an argument asks for. -/
def statusArgument (command : String) (ending : Nat → Ending) (args : List String) :
    Act Ending := do
  match args with
  | [] => return ending (← get).status
  | arg :: _ =>
    match count? arg with
    | some n => return ending n
    | none => fault (command ++ ": Illegal number: " ++ arg)

/-- Leaves loops. -/
def leave (again : Bool) (args : List String) : Act Ending := do
  let m ← get
  match count? (args.headD "1") with
  | some (n + 1) =>
    if m.loops = 0 then return .done 0 else return .left again (min n (m.loops - 1))
  | _ =>
    let command := if again then "continue" else "break"
    fault (command ++ ": Illegal number: " ++ args.headD "")

def shift (args : List String) : Act Ending := do
  let m ← get
  match count? (args.headD "1") with
  | none => fault ("shift: Illegal number: " ++ args.headD "")
  | some n =>
    if n ≤ m.args.length then
      set { m with args := m.args.drop n, optionIndex := 1, optionOffset := none }
      return .done 0
    else fault "shift: can't shift that many"

/-- A text in quotes, as it would be written in a script. -/
def written (s : String) : String :=
  let q := String.ofList [singleQuote]
  if s = "" then q ++ q
  else
    let parts := Text.splitOn q s
    let quote := "\"" ++ q ++ "\""
    if parts.length = 1 then q ++ s ++ q
    else Text.joinWith quote (parts.map fun p => if p = "" then "" else q ++ p ++ q)

/-- The variables in order of their names. -/
def sorted (vs : List Variable) : List Variable :=
  vs.mergeSort fun a b => decide (a.name ≤ b.name)

/-- A line for every variable. -/
def listing (lead : String) (vs : List Variable) : String :=
  unlines ((sorted vs).filterMap fun v =>
    match v.value with
    | some value => some (lead ++ v.name ++ "=" ++ written value)
    | none => if lead = "" then none else some (lead ++ v.name))

/-- Divides a setting into its name and value. -/
def setting (arg : String) : String × Option String :=
  let name := String.ofList (arg.toList.takeWhile (· != '='))
  if name.length < arg.length then (name, some (String.ofList (arg.toList.drop (name.length + 1))))
  else (name, none)

/-- Marks variables as exported or constant, and may give them values. -/
def mark (command : String) (change : Variable → Variable) (shown : Variable → Bool)
    (args : List String) : Act Ending :=
  withOptions command "p" args fun given args => do
    if args.isEmpty || !given.isEmpty then
      say (listing (command ++ " ") ((← get).bindings.filter shown))
      return .done 0
    else
      for arg in args do
        let (name, value) := setting arg
        let m ← get
        if !isName name then return ← fault (command ++ ": " ++ name ++ ": bad variable name")
        if value.isSome && m.isConstant name then
          return ← fault (command ++ ": " ++ name ++ ": is read only")
        match value with
        | some value => modify (·.set name value)
        | none => pure ()
        let old := ((← get).lookUp? name).getD { name, value := none }
        modify (·.put (change old))
      return .done 0

def unset (args : List String) : Act Ending :=
  withOptions "unset" "vf" args fun given args => do
    let functions := given.getLast?.any (·.1 == 'f')
    for arg in args do
      let m ← get
      let name := if functions then arg else (setting arg).1
      if functions then set { m with functions := m.functions.filter (·.1 != name) }
      else if !isName name then return ← fault ("unset: " ++ name ++ ": bad variable name")
      else if m.isConstant name then return ← fault ("unset: " ++ name ++ ": is read only")
      else set (m.unset name)
    return .done 0

/-- The options that have names, in the order in which they are shown.  The last ones have no letter
that could be given, and do nothing. -/
def optionNames : List (String × Char) :=
  [("errexit", 'e'), ("noglob", 'f'), ("ignoreeof", 'I'), ("interactive", 'i'), ("monitor", 'm'),
    ("noexec", 'n'), ("stdin", 's'), ("xtrace", 'x'), ("verbose", 'v'), ("vi", 'V'),
    ("emacs", 'E'), ("noclobber", 'C'), ("allexport", 'a'), ("notify", 'b'), ("nounset", 'u'),
    ("privileged", 'p'), ("nolog", '1'), ("debug", '2')]

/-- The order in which options are kept. -/
def optionOrder : List Char := optionNames.map (·.2)

/-- The letters that options can be given by. -/
def optionLetters : List Char := optionOrder.filter Char.isAlpha

def switch (m : Machine) (on : Bool) (c : Char) : Machine :=
  let others := m.flags.filter (· != c)
  let flags := if on then
      (optionOrder ++ ['c']).filter fun d => d == c || others.contains d
    else others
  { m with flags }

/-- Switches the options off that only show what is done. -/
def quieten (m : Machine) : Machine :=
  switch (switch m false 'x') false 'v'

/-- Gives the script other arguments. -/
def giveArguments (args : List String) : Act Unit :=
  modify ({ · with args, optionIndex := 1, optionOffset := none })

/-- Shows which options are switched on, for people or as commands. -/
def showOptions (asCommands : Bool) : Act Unit := do
  let m ← get
  if !asCommands then say "Current option settings\n"
  for (name, c) in optionNames do
    let on := m.flags.contains c
    say (if asCommands then "set " ++ (if on then "-o " else "+o ") ++ name ++ "\n"
      else padRight 16 ' ' name ++ (if on then "on" else "off") ++ "\n")

/-- Switches the options in a group of letters on or off; `names` are the arguments behind it, from
which named options are taken. -/
def switchGroup (on : Bool) : List Char → List String → Act (Except String (List String))
  | [], names => return .ok names
  | c :: cs, names => do
    let sign := if on then "-" else "+"
    if c = 'o' then
      match names with
      | [] =>
        showOptions !on
        switchGroup on cs []
      | name :: names =>
        match optionNames.find? (·.1 == name) with
        | none => return .error ("set: Illegal option " ++ sign ++ "o " ++ name)
        | some (_, letter) =>
          modify (switch · on letter)
          switchGroup on cs names
    else if optionLetters.contains c then
      modify (switch · on c)
      switchGroup on cs names
    else return .error ("set: Illegal option " ++ sign ++ String.ofList [c])

/-- Switches options on and off, and takes what follows them as the arguments of the script. -/
def setOptions : Nat → List String → Act Ending
  | 0, _ => return .done 0
  | _, [] => return .done 0
  | fuel + 1, arg :: rest => do
    let onwards (on : Bool) (cs : List Char) : Act Ending := do
      match ← switchGroup on cs rest with
      | .error e => fault e
      | .ok rest => setOptions fuel rest
    match arg.toList with
    | ['-'] =>
      modify quieten
      if !rest.isEmpty then giveArguments rest
      return .done 0
    | ['-', '-'] =>
      giveArguments rest
      return .done 0
    | '-' :: cs => onwards true cs
    | '+' :: cs => onwards false cs
    | _ =>
      giveArguments (arg :: rest)
      return .done 0

def setCommand (args : List String) : Act Ending := do
  if args.isEmpty then
    say (listing "" (← get).bindings)
    return .done 0
  else setOptions (args.length + 1) args

/-- Makes variables belong to the running function; a hyphen stands for the options. -/
def localCommand (args : List String) : Act Ending := do
  match (← get).ownVariables with
  | [] => fault "local: not in a function"
  | _ =>
    for arg in args do
      let (name, value) := setting arg
      let m ← get
      let keep (old : Option Variable) : Act Unit := do
        match m.ownVariables with
        | own :: outer =>
          let own := if own.any (·.1 == name) then own else (name, old) :: own
          set { m with ownVariables := own :: outer }
        | [] => pure ()
      if arg = "-" then keep (some { name, value := some (String.ofList m.flags) })
      else
        if !isName name then return ← fault ("local: " ++ name ++ ": bad variable name")
        keep (m.lookUp? name)
        match value with
        | some v =>
          if m.isConstant name then return ← fault ("local: " ++ name ++ ": is read only")
          modify (·.set name v)
        | none => pure ()
    return .done 0

/-- A path in which single and double dots are worked out without looking at the disk. -/
def plainPath (front path : String) : String :=
  let whole := if Text.startsWith "/" path then path else front ++ "/" ++ path
  let parts := (Text.splitOn "/" whole).foldl (fun parts part =>
    if part = "" || part = "." then parts
    else if part = ".." then parts.drop 1
    else part :: parts) []
  "/" ++ Text.joinWith "/" parts.reverse

/-- Whether a path says by itself where it starts. -/
def isAnchored (path : String) : Bool :=
  match path.toList with
  | '/' :: _ | ['.'] | '.' :: '/' :: _ | ['.', '.'] | '.' :: '.' :: '/' :: _ => true
  | _ => false

/-- Changes the working directory. -/
def cd (command : String) (args : List String) : Act Ending :=
  withOptions command "LP" args fun _ args => do
    let m ← get
    let (target, again) := match args with
      | [] => ((m.get? "HOME").getD "", false)
      | "-" :: _ => ((m.get? "OLDPWD").getD "", true)
      | dir :: _ => (dir, false)
    let isDir (path : String) : Bool := m.isDir path
    let found := if isAnchored target then none
      else
        let path := if target = "" then "." else target
        let dirs := match m.get? "CDPATH" with
          | some dirs => Text.splitOn ":" dirs
          | none => []
        dirs.findSome? fun dir =>
          let whole := if dir = "" then path else Utility.pathIn dir path
          if isDir whole then some (whole, dir != "") else none
    let (path, shown) := found.getD (target, false)
    let place := plainPath m.workingPath path
    match m.here.locate (diskPath place) with
    | .ok parts =>
      if (m.disk.top.get? parts) matches some (.dir _) then
        let exported (m : Machine) (name value : String) : Machine :=
          let m := m.set name value
          match m.lookUp? name with
          | some v => m.put { v with exported := true }
          | none => m
        set (exported (exported { m with cwd := parts } "OLDPWD" m.workingPath) "PWD" place)
        if shown || again then say (place ++ "\n")
        return .done 0
      else fault (command ++ ": can't cd to " ++ target)
    | .error _ => fault (command ++ ": can't cd to " ++ target)

/-- Shows the working directory. -/
def pwd (args : List String) : Act Ending :=
  withOptions "pwd" "LP" args fun _ _ => do
    say ((← get).workingPath ++ "\n")
    return .done 0

/-- Takes a line off the input: its text, divided where a backslash kept a character, whether it had
a line break, and what follows it. -/
def takeLine (raw : Bool) : List Char → List Char → List Fragment × Bool × List Char
  | run, [] => ([.divided (String.ofList run.reverse)], false, [])
  | run, c :: cs =>
    let here : Fragment := .divided (String.ofList run.reverse)
    if c = '\n' then ([here], true, cs)
    else if c = '\\' && !raw then
      match cs with
      | [] => ([here], false, [])
      | d :: rest =>
        let (more, ended, rest) := takeLine raw [] rest
        let kept := if d = '\n' then [] else [Fragment.kept (String.ofList [d]) false]
        (here :: kept ++ more, ended, rest)
    else takeLine raw (if c = argumentMark then run else c :: run) cs

/-- Reads a line into variables. -/
def read (args : List String) : Act Ending :=
  withOptions "read" "p:r" args fun given names => do
    if names.isEmpty then return ← fault "read: arg count"
    let m ← get
    let before := match m.stream? 0 with
      | some (.endless unit) => (Machine.repeated unit (.lines 1)).toList
      | some s => m.left s
      | none => []
    let (line, ended, rest) := takeLine (given.any (·.1 == 'r')) [] before
    if !before.isEmpty then set (m.leave 0 rest)
    let fields := Fragment.fieldsUpTo names.length m.separators line
    let values := fields.map plainField ++ List.replicate names.length ""
    for (arg, value) in names.zip values do
      let m ← get
      let name := (setting arg).1
      if !isName name then return ← fault ("read: " ++ name ++ ": bad variable name")
      if m.isConstant name then return ← fault ("read: " ++ name ++ ": is read only")
      set (m.set name value)
    return .done (if ended then 0 else 1)

/-- Permissions by letters, for the owner, the group and others. -/
def modeLetters (allowed : Nat) : String :=
  let one (who : String) (bits : Nat) : String :=
    who ++ "=" ++ (if bits &&& 4 != 0 then "r" else "") ++ (if bits &&& 2 != 0 then "w" else "") ++
      (if bits &&& 1 != 0 then "x" else "")
  Text.joinWith "," [one "u" (allowed / 64), one "g" (allowed / 8 % 8), one "o" (allowed % 8)]

/-- Shows or changes which permissions new files lack. -/
def umask (args : List String) : Act Ending :=
  withOptions "umask" "S" args fun given args => do
    let m ← get
    match args with
    | [] =>
      let shown := if given.isEmpty then padLeft 4 '0' (String.ofList (Nat.toDigits 8 m.umask))
        else modeLetters (0o777 - (m.umask &&& 0o777))
      say (shown ++ "\n")
      return .done 0
    | mode :: _ =>
      if mode.toList.head?.any Char.isDigit then
        if mode.toList.all fun c => '0' ≤ c && c ≤ '7' then
          set { m with umask := (leadingNumber 8 mode.toList).1 &&& 0o777 }
          return .done 0
        else fault ("umask: Illegal number: " ++ mode)
      else
        match Utility.changeModes false 0 (0o777 - (m.umask &&& 0o777)) mode with
        | some allowed =>
          set { m with umask := 0o777 - (allowed &&& 0o777) }
          return .done 0
        | none => fault ("umask: Illegal mode: " ++ mode)

/-- What looking for an option has come to: the letter, where to look next, and the argument of the
option; nothing if there is none. -/
structure FoundOption where
  letter : String
  /-- The argument to look at next, counted from zero. -/
  next : Nat
  /-- Where to go on in the argument before that one. -/
  offset : Option Nat := none
  argument : Option String := none
  complaint : Option String := none
  isLast : Bool := false

/-- Looks for the next option from an index on, counted from zero. -/
def nextOption (letters : String) (given : List String) (index : Nat) (offset : Option Nat) :
    FoundOption :=
  let silent := Text.startsWith ":" letters
  let inside? : Option (Nat × List Char) := match offset, index with
    | some offset, before + 1 =>
      match (given.getD before "").toList.drop offset with
      | [] => none
      | cs => some (offset, cs)
    | _, _ => none
  let start? : Option (Nat × Nat × List Char) := match inside? with
    | some (offset, cs) => some (index, offset, cs)
    | none =>
      match (given[index]?).map String.toList with
      | some ('-' :: c :: cs) => some (index + 1, 1, c :: cs)
      | _ => none
  match start? with
  | none => { letter := "?", next := index, isLast := true }
  | some (next, offset, cs) =>
    if inside?.isNone && cs = ['-'] then { letter := "?", next, isLast := true }
    else
      let c := cs.headD '?'
      let more := cs.tail
      let letter := String.ofList [c]
      let after := some (offset + 1)
      match Options.lookUp? letters.toList c with
      | none =>
        if silent then { letter := "?", next, offset := after, argument := some letter }
        else
          { letter := "?", next, offset := after
            complaint := some ("Illegal option -" ++ letter) }
      | some false => { letter, next, offset := after, argument := some "" }
      | some true =>
        if !more.isEmpty then { letter, next, argument := some (String.ofList more) }
        else
          match given[next]? with
          | some value => { letter, next := next + 1, argument := some value }
          | none =>
            if silent then { letter := ":", next, argument := some letter }
            else
              { letter := "?", next, complaint := some ("No arg for -" ++ letter ++ " option") }

/-- Takes the next option off the arguments. -/
def getopts (args : List String) : Act Ending := do
  match args with
  | letters :: target :: given =>
    let m ← get
    let name := (setting target).1
    let given := if given.isEmpty then m.args else given
    let isPast := given.length + 1 < m.optionIndex
    let index := if isPast then 0 else m.optionIndex - 1
    let found := nextOption letters given index (if isPast then none else m.optionOffset)
    match found.complaint with
    | some text => complain text
    | none => pure ()
    if !found.isLast then
      match found.argument with
      | some value => modify (·.set "OPTARG" value)
      | none => modify (·.unset "OPTARG")
    let shown := toString (found.next + 1)
    modify fun m =>
      let old := (m.lookUp? "OPTIND").getD { name := "OPTIND", value := none }
      m.put { old with value := some shown }
    let m ← get
    if !isName name then return ← fault ("getopts: " ++ name ++ ": bad variable name")
    if m.isConstant name then return ← fault ("getopts: " ++ name ++ ": is read only")
    set { m.set name found.letter with
      optionIndex := found.next + 1, optionOffset := found.offset }
    return .done (if found.isLast then 1 else 0)
  | _ => fault "getopts: Usage: getopts optstring var [arg...]"

/-! ## Names -/

/-- Puts something behind everything that does not come later in a table of a size. -/
def insertByBucket {α : Type} (size : Nat) (nameOf : α → String) (x : α) (xs : List α) : List α :=
  let key (y : α) : Nat := bucket size (nameOf y)
  let (before, behind) := (xs.takeWhile fun y => key y ≤ key x, xs.dropWhile fun y => key y ≤ key x)
  before ++ x :: behind

/-- Shows or sets the words that stand for a text. -/
def aliasCommand (args : List String) : Act Ending := do
  let shown (a : String × String) : String := a.1 ++ "=" ++ written a.2 ++ "\n"
  if args.isEmpty then
    say (String.join ((← get).aliases.map shown))
    return .done 0
  let mut status := 0
  let mut found := ""
  for arg in args do
    let m ← get
    match arg.toList with
    | [] =>
      complain "alias:  not found"
      status := 1
    | c :: cs =>
      let name := String.ofList (c :: cs.takeWhile (· != '='))
      if name.length = arg.length then
        match m.aliases.find? (·.1 == name) with
        | some a => found := found ++ shown a
        | none =>
          complain ("alias: " ++ name ++ " not found")
          status := 1
      else
        let text := String.ofList (arg.toList.drop (name.length + 1))
        let aliases := if m.aliases.any (·.1 == name) then
            m.aliases.map fun a => if a.1 == name then (name, text) else a
          else insertByBucket 39 (·.1) (name, text) m.aliases
        set { m with aliases }
  say found
  return .done status

/-- Lets words stand for themselves again. -/
def unaliasCommand (args : List String) : Act Ending :=
  withOptions "unalias" "a" args fun given args => do
    if !given.isEmpty then
      modify ({ · with aliases := [] })
      return .done 0
    let mut status := 0
    for name in args do
      let m ← get
      if m.aliases.any (·.1 == name) then
        set { m with aliases := m.aliases.filter (·.1 != name) }
      else
        complain ("unalias: " ++ name ++ " not found")
        status := 1
    return .done status

/-- Remembers where a program was found. -/
def track (name : String) : Act Unit :=
  modify fun m =>
    if Text.contains "/" name || m.tracked.contains name then m
    else { m with tracked := insertByBucket 31 id name m.tracked }

/-- Shows or changes what is remembered about programs. -/
def hash (args : List String) : Act Ending :=
  withOptions "hash" "r" args fun given args => do
    if !given.isEmpty then
      modify ({ · with tracked := [] })
      return .done 0
    if args.isEmpty then
      let m ← get
      say (unlines (m.tracked.map fun name => (Utility.pathOf? m name).getD name))
      return .done 0
    let mut status := 0
    for name in args do
      let m ← get
      if isBuiltin name || m.functions.any (·.1 == name) then pure ()
      else if (Utility.pathOf? m name).isSome then track name
      else
        shellComplain ("hash: " ++ name ++ ": not found")
        status := 1
    return .done status

/-- Says what a name stands for. -/
def describe (brief : Bool) (name : String) : Act Nat := do
  let m ← get
  let wordy (text : String) : String := if brief then name else name ++ text
  let line ← if Token.reserved.contains name then pure (some (wordy " is a shell keyword"))
    else
      match m.aliases.find? (·.1 == name) with
      | some (_, text) =>
        pure (some (if brief then "alias " ++ name ++ "=" ++ written text
          else name ++ " is an alias for " ++ text))
      | none =>
        if specialCommands.contains name then pure (some (wordy " is a special shell builtin"))
        else if m.functions.any (·.1 == name) then pure (some (wordy " is a shell function"))
        else if plainCommands.contains name then pure (some (wordy " is a shell builtin"))
        else
          let path? := if Text.contains "/" name then some name |>.filter m.exists?
            else Utility.pathOf? m name
          match path? with
          | none => pure none
          | some path => do
            track name
            let known := if m.tracked.contains name then " is a tracked alias for " else " is "
            pure (some (if brief then path else name ++ known ++ path))
  match line with
  | some line =>
    say (line ++ "\n")
    return 0
  | none =>
    if !brief then say (name ++ ": not found\n")
    return 127

/-- Says what names stand for. -/
def typeCommand (names : List String) : Act Ending := do
  let mut status := 0
  for name in names do
    let one ← describe false name
    if one != 0 then status := one
  return .done status

/-- Says what a name stands for, as the command that runs others does. -/
def commandOptions (args : List String) : Act Ending :=
  withOptions "command" "pvV" args fun given args => do
    match given.find? (·.1 != 'p'), args with
    | some _, name :: _ =>
      return .done (← describe (given.getLast?.any (·.1 == 'v')) name)
    | _, _ => return .done 0

/-! ## Signals -/

/-- Shows or sets what is done on signals. -/
def trap (args : List String) : Act Ending :=
  withOptions "trap" "" args fun _ args => do
    match args with
    | [] =>
      let m ← get
      let all := Signal.names.filterMap fun (_, name) => m.traps.find? (·.1 == name)
      say (unlines (all.map fun (s, action) => "trap -- " ++ written action ++ " " ++ s))
      return .done 0
    | action :: signals =>
      let isTarget := signals.isEmpty || ((count? action).bind Signal.known?).isSome
      let resets := action == "-" || isTarget
      for s in if isTarget then args else signals do
        match Signal.number? s with
        | none =>
          complain ("trap: " ++ s ++ ": bad trap")
          return .done 1
        | some n =>
          modify fun m =>
            let others := m.traps.filter (·.1 != Signal.name n)
            { m with traps := if resets then others else (Signal.name n, action) :: others }
      return .done 0

/-- The signal and the targets of a kill, or what names are asked for. -/
inductive KillRequest where
  | send (signal : Nat) (targets : List String)
  | list (args : List String)

def killRequest (args : List String) : Except String KillRequest :=
  let usage := "Usage: kill [-s sigspec | -signum | -sigspec] [pid | job]... or\n" ++
    "kill -l [exitstatus]"
  let send (signal : Nat) (targets : List String) : Except String KillRequest :=
    if targets.isEmpty then .error usage else .ok (.send signal targets)
  let viaOptions : Except String KillRequest := do
    let (given, args) ← options "ls:" args
    let signal ← given.foldlM (fun signal (c, value) =>
      if c = 's' then
        match Signal.number? value with
        | some n => .ok (some n)
        | none => .error ("invalid signal number or name: " ++ value)
      else .ok signal) (none : Option Nat)
    if given.any (·.1 == 'l') then
      if signal.isSome && !args.isEmpty then .error usage else .ok (.list args)
    else send (signal.getD 15) args
  match args with
  | [] => .error usage
  | arg :: rest =>
    match arg.toList with
    | '-' :: cs =>
      match Signal.number? (String.ofList cs) with
      | some n => send n rest
      | none => viaOptions
    | _ => send 15 args

/-- Sends signals; they are dealt with when the command has ended. -/
def kill (args : List String) : Act Ending := do
  match killRequest args with
  | .error e => fault ("kill: " ++ e)
  | .ok (.list []) =>
    say (unlines ("0" :: (Signal.names.filter (·.1 != 0)).map (·.2)))
    return .done 0
  | .ok (.list (s :: _)) =>
    match count? s with
    | none => fault ("kill: Illegal number: " ++ s)
    | some n =>
      let n := if 128 < n then n - 128 else n
      if 0 < n && n ≤ 64 then
        say (Signal.name n ++ "\n")
        return .done 0
      else fault ("kill: invalid signal number or exit status: " ++ s)
  | .ok (.send signal targets) =>
    let mut status := 0
    for target in targets do
      let m ← get
      let pid? := match Text.stripStart? "%" target with
        | some _ => m.lastJob
        | none => count? ((Text.stripStart? "-" target).getD target)
      match pid? with
      | none => return ← fault ("kill: Illegal number: " ++ target)
      | some pid =>
        if m.jobs.any (·.pid == pid) then
          if !Signal.isHarmless signal then
            set { m with jobs := m.jobs.filter (·.pid != pid)
                         finished := (pid, 128 + signal) :: m.finished }
        else if pid = m.pid || pid = 0 || m.shells.contains pid then
          if signal != 0 then
            let pid := if pid = 0 then m.pid else pid
            set { m with signals := m.signals ++ [(pid, signal)] }
        else
          shellComplain "kill: No such process\n"
          status := 1
    return .done status

/-- Shows the jobs that were put aside. -/
def jobs (args : List String) : Act Ending :=
  withOptions "jobs" "lp" args fun given _ => do
    let m ← get
    let last := m.jobs.length
    for (job, i) in m.jobs.zipIdx do
      let sign := if i + 1 = last then "+" else if i + 2 = last then "-" else " "
      say (if given.any (·.1 == 'p') then toString job.pid ++ "\n"
        else "[" ++ toString (i + 1) ++ "] " ++ sign ++ " Running                    \n")
    return .done 0

end Builtin

/-- The commands of the shell that run no others. -/
def builtin? (name : String) : Option (List String → Act Ending) :=
  let plain (run : List String → Act Nat) : Option (List String → Act Ending) :=
    some fun args => do return .done (← run args)
  match name with
  | ":" | "true" => plain fun _ => return 0
  | "false" => plain fun _ => return 1
  | "echo" => plain Utility.echo
  | "printf" => plain (Utility.printf .shell shellComplain)
  | "test" => plain (testCondition shellComplain "test" false)
  | "[" => plain (Utility.bracket shellComplain false)
  | "pwd" => some Builtin.pwd
  | "exit" => some (Builtin.statusArgument "exit" fun n => .exited (n % 256))
  | "return" => some (Builtin.statusArgument "return" .returned)
  | "break" => some (Builtin.leave false)
  | "continue" => some (Builtin.leave true)
  | "shift" => some Builtin.shift
  | "set" => some Builtin.setCommand
  | "unset" => some Builtin.unset
  | "export" => some (Builtin.mark "export" (fun v => { v with exported := true }) (·.exported))
  | "readonly" => some (Builtin.mark "readonly" (fun v => { v with constant := true }) (·.constant))
  | "local" => some Builtin.localCommand
  | "cd" | "chdir" => some (Builtin.cd name)
  | "read" => some Builtin.read
  | "umask" => some Builtin.umask
  | "getopts" => some Builtin.getopts
  | "type" => some Builtin.typeCommand
  | "trap" => some Builtin.trap
  | "kill" => some Builtin.kill
  | "alias" => some Builtin.aliasCommand
  | "unalias" => some Builtin.unaliasCommand
  | "hash" => some Builtin.hash
  | "jobs" => some Builtin.jobs
  | "fg" | "bg" => some fun _ => Builtin.fault (name ++ ": No current job")
  | "times" => plain fun _ => do
      say "0m0.000000s 0m0.000000s\n0m0.000000s 0m0.000000s\n"
      return 0
  | "ulimit" => plain fun _ => do
      say "unlimited\n"
      return 0
  | _ => none

end MarkerDoc.Shell
