import MarkerDoc.Shell.Builtin
import MarkerDoc.Shell.Channel
import MarkerDoc.Shell.Reader
import MarkerDoc.Shell.Tilde

/-!
# Running scripts

Commands are carried out step by step on a machine.  Because loops need not end, the depth of steps
is bounded; a script that goes deeper is spent.

Words are filled in before a command runs, then its channels are connected, and then variables are
set for it.  A failing command ends the script if that is asked for, unless its outcome is part of
a condition.
-/

namespace MarkerDoc.Shell

open Utility (shellComplain)

/-- Filling words in may end the script. -/
abbrev Run := ExceptT Ending Act

/-- The status that whoever waits for something gets to see. -/
def Ending.status : Ending → Nat
  | .done status | .exited status | .returned status => status
  | .faulted => 2
  | .left .. => 0
  | .killed signal => 128 + signal
  | .spent => 137

/-- Complains about something that the shell itself came across. -/
def report (text : String) : Act Unit := do
  let lead := match (← get).running with
    | some name => name ++ ": "
    | none => ""
  shellComplain (lead ++ text)

/-- Complains and ends the script. -/
def stopWith {α : Type} (text : String) : Run α := do
  report text
  throw .faulted

/-- Ends a command with a status, and the whole script with it if failures are to do so. -/
def settle (status : Nat) : Act Ending := do
  modify ({ · with status })
  let m ← get
  return if status != 0 && m.flags.contains 'e' && !m.asked then .exited status else .done status

/-- Gives a variable a value, unless it is constant. -/
def assign (name value : String) (exported : Bool) : Run Unit := do
  let m ← getThe Machine
  if !isName name then stopWith (name ++ ": bad variable name")
  else if m.isConstant name then stopWith (name ++ ": is read only")
  else
    let m := m.set name value
    match m.lookUp? name with
    | some v => set (m.put { v with exported := v.exported || exported })
    | none => set m

/-- How a word is filled in: whether it may become several fields, and whether a tilde may also
stand behind a colon. -/
structure Filling where
  fields : Bool := false
  colons : Bool := false

/-- The arguments of the script as one text. -/
def argumentText (m : Machine) (f : Filling) (quoted : Bool) (name : String) : String :=
  let between := if !f.fields || (quoted && name != "@") then m.argumentSeparator
    else if quoted || (m.get? "IFS").isSome then String.ofList [argumentMark]
    else " "
  Text.joinWith between m.args

/-- The most functions that can be called inside one another. -/
def callLimit : Nat := 1000

/-! ## Shells -/

/-- What the arguments of a shell come to. -/
structure ShellArgs where
  flags : List Char := []
  operands : List String := []
  bad : Option String := none

/-- Reads the options of a shell. -/
def shellArgs (a : ShellArgs) : List String → ShellArgs
  | [] => a
  | arg :: rest =>
    let on (c : Char) : ShellArgs :=
      { a with
        flags := (Builtin.optionOrder ++ ['c']).filter fun d => d == c || a.flags.contains d }
    if arg = "--" || arg = "-" then { a with operands := rest }
    else
      match arg.toList with
      | [sign, 'o'] =>
        if sign = '-' || sign = '+' then
          match rest with
          | name :: rest =>
            match Builtin.optionNames.find? (·.1 == name) with
            | some (_, c) => shellArgs (if sign = '-' then on c else a) rest
            | none => { a with bad := some (String.ofList [sign] ++ "o " ++ name) }
          | [] => a
        else { a with operands := arg :: rest }
      | '-' :: c :: cs =>
        let known := Builtin.optionLetters ++ ['c', 'l']
        match (c :: cs).find? fun d => !known.contains d with
        | some d => { a with bad := some (String.ofList ['-', d]) }
        | none =>
          let all := (c :: cs) ++ a.flags
          shellArgs { a with flags := (Builtin.optionOrder ++ ['c']).filter all.contains } rest
      | '+' :: c :: cs =>
        shellArgs { a with flags := a.flags.filter fun d => !(c :: cs).contains d } rest
      | _ => { a with operands := arg :: rest }

/-- The context in which a shell of its own starts. -/
def Machine.startShell (m : Machine) (flags : List Char) (name : String) (args : List String) :
    Machine :=
  let inherited := m.bindings.filter fun v =>
    v.exported && !(["PPID", "OPTIND", "IFS", "PWD"].contains v.name)
  let own : List Variable :=
    [{ name := "PWD", value := some m.workingPath, exported := true },
      { name := "PPID", value := some (toString m.pid) },
      { name := "OPTIND", value := some "1" }, { name := "IFS", value := some " \t\n" },
      { name := "PS1", value := some "# " }, { name := "PS2", value := some "> " },
      { name := "PS4", value := some "+ " },
      { name := "PATH"
        value := some "/usr/local/sbin:/usr/local/bin:/usr/sbin:/usr/bin:/sbin:/bin" }]
  { m with
    toContext := {
      cwd := m.cwd, name, args, flags, channels := m.channels, umask := m.umask
      bindings :=
        (inherited.map fun v => { v with constant := false }) ++
        own.filter fun v => !inherited.any (·.name == v.name)
      traps := m.traps.filter (·.2 == "")
      pid := m.nextPid }
    nextPid := m.nextPid + 1
    shells := m.nextPid :: m.shells }

/-- The first signal that was sent to the shell and for which it has something to do. -/
def Machine.caught? (m : Machine) : Option Nat :=
  (m.signals.find? fun (pid, signal) =>
    pid == m.pid && m.traps.any fun (name, action) =>
      name == Signal.name signal && action != "").map (·.2)

/-- The context of a part that runs on its own. -/
def Machine.forked (m : Machine) : Machine :=
  { m with depth := m.depth + 1, traps := m.traps.filter (·.2 == "") }

/-- The program that a script asks for in its first line, with its argument. -/
def interpreter (text : String) : List String :=
  match Text.stripStart? "#!" (String.ofList (text.toList.takeWhile (· != '\n'))) with
  | some line => Text.words line
  | none => ["/bin/sh"]

/-- Remembers where the program of a simple command is found. -/
def trackFirst (c : Command) : Act Unit := do
  let words := match c with
    | .simple _ _ words | .redirected (.simple _ _ words) _ => words
    | _ => []
  match words.head?.bind Word.bare? with
  | some name =>
    let m ← get
    if isName name && !isBuiltin name && !m.functions.any (·.1 == name) &&
        (Utility.pathOf? m name).isSome then
      Builtin.track name
  | none => return ()

/-- Shows a command with the variables that were set for it, if commands are traced. -/
def trace (channels : List (Nat × Nat)) (names fields : List String) : Act Unit :=
  modify fun m =>
    if m.flags.contains 'x' then
      let settings := names.map fun name => name ++ "=" ++ (m.get? name).getD ""
      let shown := (m.get? "PS4").getD "" ++ Text.joinWith " " (settings ++ fields) ++ "\n"
      { ({ m with channels }.write 2 shown).2 with channels := m.channels }
    else m

mutual

/-- Fills in the pieces of a word. -/
def expand : Nat → Filling → Word → Run (List Fragment)
  | 0, _, _ => throw .spent
  | _, _, [] => return []
  | fuel + 1, f, p :: ps => do
    let found ← expandPiece fuel f p
    return found ++ (← expand fuel f ps)

/-- Fills in a whole word, where a tilde at its start stands for a home directory. -/
def expandWord : Nat → Filling → Word → Run (List Fragment)
  | 0, _, _ => throw .spent
  | fuel + 1, f, w => do expand fuel f (expandTildes (← getThe Machine) f.colons w)

/-- Fills in one piece. -/
def expandPiece : Nat → Filling → Piece → Run (List Fragment)
  | 0, _, _ => throw .spent
  | fuel + 1, f, p => do
    let fragment (quoted : Bool) (s : String) : List Fragment :=
      if quoted then [.kept s true] else [.divided s]
    match p with
    | .text quoted s => return [.kept s quoted]
    | .output quoted body =>
      passJobs fuel 0 (← getThe Machine).jobs
      let before ← getThe Machine
      let (id, m) := before.addStream (.holding "")
      set { m.connect 1 id with asked := false }
      let ending ← evalForked fuel body
      runWriters fuel id (← getThe Machine).jobs
      let text := (← getThe Machine).held id
      modifyThe Machine fun m =>
        { m with channels := before.channels, asked := before.asked, outputStatus := ending.status }
      if ending = .spent then throw .spent
      let cs := text.toList.filter (· != Char.ofNat 0)
      return fragment quoted (String.ofList (Text.dropEndWhile (· == '\n') cs))
    | .number quoted e =>
      let text ← expandText fuel {} e
      match Expression.evalText (← getThe Machine) text with
      | .ok (n, m) =>
        set m
        return fragment quoted (toString n)
      | .error message => stopWith message
    | .parameter quoted name change word => expandParameter fuel f quoted name change word

/-- Fills in a parameter with its change. -/
def expandParameter : Nat → Filling → Bool → String → String → Word → Run (List Fragment)
  | 0, _, _, _, _, _ => throw .spent
  | fuel + 1, f, quoted, name, change, word => do
    let m ← getThe Machine
    let isAll := name == "@" || name == "*"
    let value? := if isAll then some (argumentText m f quoted name) else m.parameter? name
    let value := value?.getD ""
    let fill (s : String) : List Fragment :=
      if !quoted then [.divided s]
      else if name = "@" then (if m.args.isEmpty then [] else [.arguments s])
      else [.kept s true]
    let isMissing := value?.isNone || (Text.startsWith ":" change && value == "")
    let inner : Run (List Fragment) := do
      let found ← expandWord fuel f word
      return if quoted then found else found.map Fragment.loosen
    let isUnset := value?.isNone && m.flags.contains 'u'
    match change with
    | "bad" => stopWith "Bad substitution"
    | "" =>
      if isUnset then stopWith (name ++ ": parameter not set")
      else return if value?.isNone then [] else fill value
    | "length" =>
      if isUnset then stopWith (name ++ ": parameter not set")
      else return fill (toString value.length)
    | "-" | ":-" => if isMissing then inner else return fill value
    | "+" | ":+" => if isMissing then return fill "" else inner
    | "=" | ":=" =>
      if isMissing then
        let text ← expandText fuel {} word
        assign name text false
        return fill text
      else return fill value
    | "?" | ":?" =>
      if isMissing then
        let text ← expandText fuel {} word
        let message := if !word.isEmpty then text
          else if change = "?" then "parameter not set" else "parameter not set or null"
        stopWith (name ++ ": " ++ message)
      else return fill value
    | _ =>
      if isUnset then stopWith (name ++ ": parameter not set")
      else if value?.isNone then return []
      else
        let pattern := Fragment.pattern (← expandWord fuel {} word)
        let cs := value.toList
        let cut := match change with
          | "#" => dropFront false pattern cs
          | "##" => dropFront true pattern cs
          | "%" => dropBack false pattern cs
          | _ => dropBack true pattern cs
        return fill (String.ofList cut)

/-- Fills in a word that is not divided. -/
def expandText : Nat → Filling → Word → Run String
  | 0, _, _ => throw .spent
  | fuel + 1, f, w => do return Fragment.text (← expandWord fuel f w)

/-- Fills in a word and divides it into fields. -/
def expandFields : Nat → Word → Run (List String)
  | 0, _ => throw .spent
  | fuel + 1, w => do
    let found ← expandWord fuel { fields := true } w
    let m ← getThe Machine
    return (Fragment.fields m.separators found).flatMap (expandField m)

/-- Fills in words and puts their fields together.  Where words may be settings, those that are stay
in one piece. -/
def expandWords : Nat → Bool → List Word → Run (List String)
  | 0, _, _ => throw .spent
  | _, _, [] => return []
  | fuel + 1, settings, w :: ws => do
    let fields ← match settings, Word.assignment? w with
      | true, some (name, value) => do
        pure [name ++ "=" ++ (← expandText fuel { colons := true } value)]
      | _, _ => expandFields fuel w
    return fields ++ (← expandWords fuel settings ws)

/-- Fills in words until there is a field; the fields and the words that are left. -/
def expandFirst : Nat → List Word → Run (List String × List Word)
  | 0, _ => throw .spent
  | _, [] => return ([], [])
  | fuel + 1, w :: ws => do
    let fields ← expandFields fuel w
    if fields.isEmpty then expandFirst fuel ws else return (fields, ws)

/-- Passes over the options of a command that runs others: what is left of the fields and words, or
nothing if no other command is to be run.  The flag says that options have ended. -/
def expandBehind : Nat → Bool → List String → List Word → Run (Option (List String × List Word))
  | 0, _, _, _ => throw .spent
  | fuel + 1, ended, fields, words => do
    match fields with
    | [] =>
      let (fields, words) ← expandFirst fuel words
      if fields.isEmpty then return none else expandBehind fuel ended fields words
    | field :: more =>
      match field.toList with
      | '-' :: c :: cs =>
        if ended then return some (fields, words)
        else if c = '-' && cs.isEmpty then expandBehind fuel true more words
        else if (c :: cs).all (· == 'p') then expandBehind fuel false more words
        else return none
      | _ => return some (fields, words)

/-- Fills in the words of a command: its fields from the name on, and whether functions are passed
over because the name stands behind a command that runs others. -/
def expandCommand : Nat → Bool → List String → List Word → Run (List String × Bool)
  | 0, _, _, _ => throw .spent
  | fuel + 1, behind, fields, words => do
    let name := fields.headD ""
    let isFunction := !behind && !specialCommands.contains name &&
      (← getThe Machine).functions.any (·.1 == name)
    if name = "command" && !isFunction then
      match ← expandBehind fuel false fields.tail words with
      | some (fields, words) => expandCommand fuel true fields words
      | none => return (fields ++ (← expandWords fuel false words), behind)
    else
      let settings := !isFunction && ["alias", "export", "local", "readonly"].contains name
      return (fields ++ (← expandWords fuel settings words), behind)

/-- Fills in the patterns of an arm. -/
def expandPatterns : Nat → List Word → Run (List (List Wildcard))
  | 0, _ => throw .spent
  | _, [] => return []
  | fuel + 1, w :: ws => do
    let found ← expandWord fuel {} w
    return Fragment.pattern found :: (← expandPatterns fuel ws)

/-- Carries out assignments. -/
def assignAll : Nat → Bool → List (String × Word) → Run Unit
  | 0, _, _ => throw .spent
  | _, _, [] => return ()
  | fuel + 1, exported, (name, w) :: rest => do
    assign name (← expandText fuel { colons := true } w) exported
    assignAll fuel exported rest

/-- Connects channels; whether that was possible. -/
def redirect : Nat → List Redirection → Run Bool
  | 0, _ => throw .spent
  | _, [] => return true
  | fuel + 1, .to channel op target :: rs => do
    let filled ← tryCatch (do return some (← expandText fuel {} target)) fun ending =>
      if ending = .faulted && op = "<<" then return none else throw ending
    match filled with
    | none => return false
    | some text =>
      if copies op && (copiedChannel? text).isNone then stopWith "Syntax error: Bad fd number"
      else
        match connectTo (← getThe Machine) channel op text with
        | .ok m =>
          set m
          redirect fuel rs
        | .error e =>
          report e
          return false

/-- Runs a program, a script or a shell by its name. -/
def external : Nat → List String → Act Nat
  | 0, _ => return 137
  | _, [] => return 0
  | fuel + 1, name :: args => do
    let before ← get
    match Utility.lookUp before name with
    | .program run =>
      set { before with unread := false }
      let status ← run (external fuel) args
      let m ← get
      set (before.after { m with lost := before.lost, unread := before.unread })
      if m.unread then
        complain (name ++ ": -: Bad file descriptor")
        return Utility.unreadStatus (Utility.baseName name)
      else if m.lost && !before.lost then
        let cause := if m.stream? 1 = some .full then "No space left on device"
          else "Bad file descriptor"
        complain (name ++ ": write error: " ++ cause)
        return if name = "ls" then 2 else 1
      else return status
    | .shell => return (← runShell fuel name args).status % 256
    | .script path text =>
      match interpreter text with
      | [] => return (← runShell fuel "sh" (path :: args)).status % 256
      | first :: rest =>
        let plain := Utility.baseName first
        if Utility.shells.contains plain || plain = "bash" then
          return (← runShell fuel "sh" (rest ++ path :: args)).status % 256
        else external fuel (first :: rest ++ path :: args)
    | .denied => return 126
    | .missing => return 127

/-- Runs a program for the shell, which complains if there is none. -/
def runProgram : Nat → List String → Act Nat
  | 0, _ => return 137
  | _, [] => return 0
  | fuel + 1, name :: args => do
    let time := if Utility.baseName name = "sleep" then
        (args.filterMap Utility.duration?).foldl (· + ·) 0
      else 0
    passJobs fuel time (← get).jobs
    match Utility.lookUp (← get) name with
    | .denied =>
      report (name ++ ": Permission denied")
      return 126
    | .missing =>
      report (name ++ (if name = "" then ": Permission denied" else ": not found"))
      return 127
    | _ =>
      modify (·.arranged)
      external fuel (name :: args)

/-- Lets the jobs end that are done within a time. -/
def passJobs : Nat → Nat → List Job → Act Unit
  | 0, _, _ => return ()
  | _, _, [] => return ()
  | fuel + 1, time, job :: jobs => do
    let before ← get
    runJob fuel job
    if before.clock + time < (← get).clock then set before
    else modify ({ · with clock := before.clock })
    passJobs fuel time jobs

/-- Runs a job that was put aside. -/
def runJob : Nat → Job → Act Unit
  | 0, _ => return ()
  | fuel + 1, job => do
    let before ← get
    set { before with jobs := before.jobs.filter (·.pid != job.pid), toContext := job.context }
    let ending ← evalForked fuel job.body
    modify fun m => before.after { m with finished := (job.pid, ending.status) :: m.finished }

/-- Runs the jobs among some that can write to a stream, whose end is waited for. -/
def runWriters : Nat → Nat → List Job → Act Unit
  | 0, _, _ => return ()
  | _, _, [] => return ()
  | fuel + 1, id, job :: jobs => do
    if job.context.channels.any (·.2 == id) then runJob fuel job
    runWriters fuel id jobs

/-- Runs all jobs that were put aside. -/
def runJobs : Nat → Act Unit
  | 0 => return ()
  | fuel + 1 => do
    match (← get).jobs with
    | [] => return ()
    | job :: _ =>
      runJob fuel job
      runJobs fuel

/-- Runs a shell of its own with the arguments: a script that is given as text, in a file or as the
input. -/
def runShell : Nat → String → List String → Act Ending
  | 0, _, _ => return .spent
  | fuel + 1, own, args => do
    let before ← get
    let a := shellArgs {} args
    let start (text name : String) (args : List String) : Act Ending := do
      modify (·.startShell (a.flags.filter (· != 'c')) name args)
      let pid := (← get).pid
      let ending ← runSource fuel { rest := text.toList } 0
      let ending ← finish fuel ending
      modify fun m => { before.after m with shells := m.shells.filter (· != pid) }
      return ending
    let fault (text : String) : Act Ending := do
      complain (own ++ ": 0: " ++ text)
      return .exited 2
    match a.bad, a.operands with
    | some bad, _ => fault ("Illegal option " ++ bad)
    | none, [] =>
      if a.flags.contains 'c' then fault "-c requires an argument"
      else
        let text ← takeAll 0
        start text own []
    | none, first :: rest =>
      if a.flags.contains 'c' then start first (rest.headD own) rest.tail
      else if a.flags.contains 's' then
        let text ← takeAll 0
        start text own (first :: rest)
      else
        match ← contentOf first with
        | .ok text => start text first rest
        | .error e => fault ("cannot open " ++ first ++ ": " ++ openReason false e)

/-- Does what is to be done at the end of a shell. -/
def finish : Nat → Ending → Act Ending
  | 0, _ => return .spent
  | fuel + 1, ending => do
    let m ← get
    match m.traps.find? (·.1 == "EXIT") with
    | none => return ending
    | some (_, action) =>
      if ending matches .killed _ | .spent then return ending
      else
        set { m with
          traps := m.traps.filter (·.1 != "EXIT"), status := ending.status, asked := false
          running := none }
        match ← runText fuel action with
        | .done _ | .returned _ | .left .. => return ending
        | other => return other

/-- Deals with the signals that were sent to the shell. -/
def deliver : Nat → Ending → Act Ending
  | 0, _ => return .spent
  | fuel + 1, ending => do
    let m ← get
    match m.signals.find? (·.1 == m.pid) with
    | none => return ending
    | some (pid, signal) =>
      if m.depth != 0 then return ending
      else
        set { m with signals := m.signals.erase (pid, signal), asked := false, running := none }
        match m.traps.find? fun (s, _) => s == Signal.name signal && signal != 9 with
        | some (_, "") => deliver fuel ending
        | some (_, action) =>
          match ← runText fuel action with
          | .done _ =>
            modify ({ · with status := m.status, asked := m.asked, running := m.running })
            deliver fuel ending
          | other => return other
        | none => if Signal.isHarmless signal then deliver fuel ending else return .killed signal

/-- Reads and carries out a text. -/
def runText : Nat → String → Act Ending
  | 0, _ => return .spent
  | fuel + 1, text => runSource fuel { rest := text.toList } 0

/-- Reads and carries out lines; `last` is the status so far.  A line that cannot be read ends the
script. -/
def runSource : Nat → Source → Nat → Act Ending
  | 0, _, _ => return .spent
  | fuel + 1, s, last => do
    if s.rest.isEmpty then return .done last
    else
      match { s with aliases := (← get).aliases }.next with
      | .error e =>
        modify ({ · with line := e.line })
        report ("Syntax error: " ++ e.fault.message)
        return .faulted
      | .ok (c, rest) =>
        if c.isEmpty then runSource fuel rest last
        else
          match ← eval fuel c with
          | .done status =>
            modify ({ · with status })
            runSource fuel rest status
          | ending => return ending

/-- Calls a function. -/
def callFunction : Nat → Command → List String → Act Ending
  | 0, _, _ => return .spent
  | fuel + 1, body, args => do
    let before ← get
    if callLimit ≤ before.calls then
      report "Maximum function recursion depth (1000) reached"
      return .faulted
    else
      set { before with
        args, loops := 0, ownVariables := [] :: before.ownVariables, calls := before.calls + 1
        optionIndex := 1, optionOffset := none }
      let ending ← eval fuel body
      modify fun m =>
        let own := m.ownVariables.headD []
        { m.restore own with
          args := before.args, loops := before.loops, ownVariables := before.ownVariables
          calls := before.calls, optionIndex := before.optionIndex
          optionOffset := before.optionOffset }
      match ending with
      | .returned status => settle status
      | .left .. => return .done 0
      | ending => return ending

/-- Carries out something in the name of a command, which is part of messages. -/
def runAs : Nat → String → Source → Act Ending
  | 0, _, _ => return .spent
  | fuel + 1, name, source => do
    let before := (← get).running
    modify ({ · with running := some name })
    let ending ← runSource fuel source 0
    modify ({ · with running := before })
    return ending

/-- Runs a command of the shell itself. -/
def callBuiltin : Nat → String → List String → Act Ending
  | 0, _, _ => return .spent
  | fuel + 1, name, args => do
    match name with
    | "eval" => runAs fuel "eval" { rest := (Text.joinWith " " args).toList }
    | "." =>
      match Builtin.options "" args with
      | .error e => Builtin.fault (".: " ++ e)
      | .ok (_, []) => return .done 0
      | .ok (_, file :: _) =>
        let m ← get
        let path := if Text.contains "/" file then some file
          else (Utility.searchDirs m).findSome? fun dir =>
            let path := if dir = "" then file else Utility.pathIn dir file
            if m.kind path matches .ok .file then some path else none
        match path with
        | none => Builtin.fault (".: " ++ file ++ ": not found")
        | some path =>
          match m.fileText path with
          | .error e => Builtin.fault (".: cannot open " ++ path ++ ": " ++ openReason false e)
          | .ok text =>
            modify ({ · with asked := false })
            let ending ← runAs fuel path { rest := text.toList }
            modify ({ · with asked := m.asked })
            match ending with
            | .returned status => return .done status
            | ending => return ending
    | "exec" =>
      match Builtin.options "" args with
      | .error e => Builtin.fault ("exec: " ++ e)
      | .ok (_, []) => return .done 0
      | .ok (_, command :: args) =>
        match Utility.lookUp (← get) command with
        | .missing =>
          shellComplain ("exec: " ++ command ++ ": not found")
          return .exited 127
        | .denied =>
          shellComplain ("exec: " ++ command ++ ": Permission denied")
          return .exited 126
        | _ =>
          modify fun m => { m with traps := m.traps.filter (·.1 != "EXIT") }
          return .exited (← external fuel (command :: args))
    | "command" => Builtin.commandOptions args
    | "wait" =>
      match Builtin.options "" args with
      | .error e => Builtin.fault ("wait: " ++ e)
      | .ok (_, []) => waitForAll fuel
      | .ok (_, targets) => waitFor fuel targets 0
    | name =>
      match builtin? name with
      | some run => run args
      | none => return .done 127

/-- Waits for jobs; the status is that of the last one. -/
def waitFor : Nat → List String → Nat → Act Ending
  | 0, _, _ => return .spent
  | _, [], last => return .done last
  | fuel + 1, target :: targets, _ => do
    let m ← get
    let pid? := match Text.stripStart? "%" target with
      | some _ => m.lastJob
      | none => Builtin.count? target
    match pid? with
    | none =>
      if Text.startsWith "%" target then Builtin.fault ("wait: No such job: " ++ target)
      else Builtin.fault ("wait: Illegal number: " ++ target)
    | some pid =>
      match m.jobs.find? (·.pid == pid) with
      | some job => runJob fuel job
      | none => pure ()
      let m ← get
      match m.caught? with
      | some signal => return .done (128 + signal)
      | none =>
        let status := (m.finished.find? (·.1 == pid)).map (·.2)
        waitFor fuel targets (status.getD 127)

/-- Waits for all jobs, or until a signal is caught. -/
def waitForAll : Nat → Act Ending
  | 0 => return .spent
  | fuel + 1 => do
    let m ← get
    match m.caught?, m.jobs with
    | some signal, _ => return .done (128 + signal)
    | none, [] => return .done 0
    | none, job :: _ =>
      runJob fuel job
      waitForAll fuel

/-- Runs a command of the shell itself and checks that its output was written.  A fault ends the
script only if the command is special. -/
def callOwn : Nat → Bool → String → List String → Act Ending
  | 0, _, _, _ => return .spent
  | fuel + 1, special, name, args => do
    let before := (← get).lost
    modify ({ · with lost := false })
    let ending ← callBuiltin fuel name args
    let lost := (← get).lost
    modify ({ · with lost := before })
    if lost then shellComplain (name ++ ": " ++ name ++ ": I/O error")
    match ending with
    | .faulted => return if special then .faulted else .done 2
    | .done status => return .done (if lost then status ||| 1 else status)
    | ending => return ending

/-- Runs a command by name, after setting variables for it.  Traces are written where errors went
before the command. -/
def callCommand :
    Nat → List (Nat × Nat) → List (String × Word) → Bool → List String → Act Ending
  | 0, _, _, _, _ => return .spent
  | _, _, _, _, [] => return .done 0
  | fuel + 1, before, assignments, behind, name :: args => do
    let m ← get
    let names := assignments.map (·.1)
    let shown := (if behind then ["command"] else []) ++ name :: args
    if specialCommands.contains name && !behind then
      match ← (assignAll fuel false assignments).run with
      | .error ending => return ending
      | .ok _ =>
        trace before names shown
        callOwn fuel true name args
    else
      let old := assignments.map fun (name, _) => (name, m.lookUp? name)
      match ← (assignAll fuel true assignments).run with
      | .error ending => return ending
      | .ok _ =>
        trace before names shown
        let function? := if behind then none else m.functions.find? (·.1 == name)
        let ending ← match function? with
          | some (_, body) => callFunction fuel body args
          | none =>
            if isBuiltin name then callOwn fuel false name args
            else do
              if (Utility.pathOf? (← get) name).isSome then Builtin.track name
              pure (Ending.done (← runProgram fuel (name :: args)))
        modify (·.restore old)
        return ending

/-- Carries out a simple command. -/
def evalSimple : Nat → Nat → List (String × Word) → List Word → List Redirection → Act Ending
  | 0, _, _, _, _ => return .spent
  | fuel + 1, line, assignments, words, rs => do
    modify ({ · with line, outputStatus := 0 })
    let before := (← get).channels
    let expanded : Run (List String × Bool) := do
      let (fields, words) ← expandFirst fuel words
      if fields.isEmpty then return ([], false) else expandCommand fuel false fields words
    match ← expanded.run with
    | .error ending => return ending
    | .ok (fields, behind) =>
      let name := fields.headD ""
      let connected ← (redirect fuel rs).run
      let ending ← match connected with
        | .error ending => pure ending
        | .ok false =>
          if specialCommands.contains name && !behind then pure Ending.faulted else settle 2
        | .ok true =>
          if fields.isEmpty then do
            match ← (assignAll fuel false assignments).run with
            | .error ending => pure ending
            | .ok _ =>
              if !assignments.isEmpty then trace before (assignments.map (·.1)) []
              settle (← get).outputStatus
          else do
            match ← callCommand fuel before assignments behind fields with
            | .done status => settle status
            | ending => pure ending
      if !(name = "exec" && connected matches .ok true) then
        modify ({ · with channels := before })
      return ending

/-- Carries out a command, and deals with signals after it. -/
def eval : Nat → Command → Act Ending
  | 0, _ => return .spent
  | fuel + 1, c => do
    if (← get).flags.contains 'n' then return .done 0
    match ← evalCommand fuel c with
    | .done status =>
      if (← get).signals.isEmpty then return .done status else deliver fuel (.done status)
    | ending => return ending

/-- Carries out a command in a context of its own. -/
def evalForked : Nat → Command → Act Ending
  | 0, _ => return .spent
  | fuel + 1, c => do
    let before ← get
    set before.forked
    let ending ← eval fuel c
    let ending ← finish fuel ending
    modify before.after
    match ending with
    | .spent => return .spent
    | ending => return .done (ending.status % 256)

/-- Carries out a command whose failure is only asked about. -/
def evalAsking : Nat → Command → Act Ending
  | 0, _ => return .spent
  | fuel + 1, c => do
    let before := (← get).asked
    modify ({ · with asked := true })
    let ending ← eval fuel c
    modify ({ · with asked := before })
    return ending

def evalCommand : Nat → Command → Act Ending
  | 0, _ => return .spent
  | fuel + 1, c => do
    match c with
    | .empty => return .done 0
    | .simple line assignments words => evalSimple fuel line assignments words []
    | .redirected (.simple line assignments words) rs => evalSimple fuel line assignments words rs
    | .redirected body rs =>
      let before := (← get).channels
      let ending ← match ← (redirect fuel rs).run with
        | .error ending => pure ending
        | .ok false => settle 2
        | .ok true => eval fuel body
      modify ({ · with channels := before })
      return ending
    | .subshell body =>
      passJobs fuel 0 (← get).jobs
      match ← evalForked fuel body with
      | .done status => settle status
      | ending => return ending
    | .background body =>
      let m ← get
      let pid := m.nextPid
      let (id, m) := m.addStream .nothing
      let context := { (m.connect 0 id).toContext with asked := false }
      let job : Job := { pid, body, context }
      set { m with nextPid := pid + 1, lastJob := some pid, jobs := m.jobs ++ [job] }
      return .done 0
    | .negated body =>
      match ← evalAsking fuel body with
      | .done status =>
        let status := if status = 0 then 1 else 0
        modify ({ · with status })
        return .done status
      | ending => return ending
    | .sequence first second =>
      match ← eval fuel first with
      | .done status =>
        modify ({ · with status })
        if second.isEmpty then return .done status else eval fuel second
      | ending => return ending
    | .both first second =>
      match ← evalAsking fuel first with
      | .done 0 =>
        modify ({ · with status := 0 })
        eval fuel second
      | .done status =>
        modify ({ · with status })
        return .done status
      | ending => return ending
    | .either first second =>
      match ← evalAsking fuel first with
      | .done 0 =>
        modify ({ · with status := 0 })
        return .done 0
      | .done status =>
        modify ({ · with status })
        eval fuel second
      | ending => return ending
    | .pipe first second =>
      trackFirst first
      if !(second matches .pipe ..) then trackFirst second
      passJobs fuel 0 (← get).jobs
      let before := (← get).channels
      let (id, m) := (← get).addStream (.holding "")
      set (m.connect 1 id)
      let _ ← evalForked fuel first
      runWriters fuel id (← get).jobs
      let m ← get
      let input := match m.streams[id]? with
        | some (.endless unit) => Stream.endless unit
        | _ => .reading (m.held id).toList false
      let (input, m) := { m with channels := before }.addStream input
      set (m.connect 0 input)
      let ending ← evalForked fuel second
      modify ({ · with channels := before })
      match ending with
      | .done status => settle status
      | ending => return ending
    | .choose condition positive negative =>
      match ← evalAsking fuel condition with
      | .done 0 =>
        modify ({ · with status := 0 })
        eval fuel positive
      | .done _ =>
        modify ({ · with status := 0 })
        eval fuel negative
      | ending => return ending
    | .loop wanted condition body =>
      modify fun m => { m with loops := m.loops + 1 }
      let ending ← evalLoop fuel wanted condition body 0
      modify fun m => { m with loops := m.loops - 1 }
      return ending
    | .each name words body =>
      let fields ← match words with
        | none => do pure (Except.ok (← get).args)
        | some ws => (expandWords fuel false ws).run
      match fields with
      | .error ending => return ending
      | .ok fields =>
        modify fun m => { m with loops := m.loops + 1 }
        let ending ← evalEach fuel name fields body 0
        modify fun m => { m with loops := m.loops - 1 }
        return ending
    | .select word arms =>
      match ← (expandText fuel {} word).run with
      | .error ending => return ending
      | .ok text => evalArms fuel text arms
    | .arm .. => return .done 2
    | .define name body =>
      modify fun m => { m with functions := (name, body) :: m.functions.filter (·.1 != name) }
      return .done 0
    | .numbered line body =>
      modify ({ · with line })
      evalCommand fuel body

/-- Carries out the body of a loop as long as the condition has the wanted outcome; `last` is the
status of the round before. -/
def evalLoop : Nat → Bool → Command → Command → Nat → Act Ending
  | 0, _, _, _, _ => return .spent
  | fuel + 1, wanted, condition, body, last => do
    match ← evalAsking fuel condition with
    | .done status =>
      modify ({ · with status })
      if (status == 0) == wanted then
        match ← eval fuel body with
        | .done status =>
          modify ({ · with status })
          evalLoop fuel wanted condition body status
        | .left true 0 => evalLoop fuel wanted condition body 0
        | .left false 0 => return .done 0
        | .left again (outer + 1) => return .left again outer
        | ending => return ending
      else return .done last
    | .left true 0 => evalLoop fuel wanted condition body last
    | .left false 0 => return .done 0
    | .left again (outer + 1) => return .left again outer
    | ending => return ending

/-- Carries out the body of a loop for each of some values. -/
def evalEach : Nat → String → List String → Command → Nat → Act Ending
  | 0, _, _, _, _ => return .spent
  | _, _, [], _, last => return .done last
  | fuel + 1, name, value :: values, body, _ => do
    match ← (assign name value false).run with
    | .error ending => return ending
    | .ok _ =>
      match ← eval fuel body with
      | .done status =>
        modify ({ · with status })
        evalEach fuel name values body status
      | .left true 0 => evalEach fuel name values body 0
      | .left false 0 => return .done 0
      | .left again (outer + 1) => return .left again outer
      | ending => return ending

/-- Carries out the first arm with a pattern that a text matches. -/
def evalArms : Nat → String → Command → Act Ending
  | 0, _, _ => return .spent
  | fuel + 1, text, arms => do
    match arms with
    | .arm patterns body next =>
      match ← (expandPatterns fuel patterns).run with
      | .error ending => return ending
      | .ok found =>
        if found.any fun p => wildMatch p text.toList then eval fuel body
        else evalArms fuel text next
    | _ => return .done 0

end

/-- The depth of steps that a script may go to. -/
def stepLimit : Nat := 100000

end MarkerDoc.Shell
