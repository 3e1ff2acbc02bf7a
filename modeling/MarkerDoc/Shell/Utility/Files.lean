import MarkerDoc.Shell.Utility.Values

/-!
# Programs that work on files

Listing, copying, moving and removing files and directories, and changing what is known about
them.
-/

namespace MarkerDoc.Shell.Utility

/-- A path inside a directory. -/
def pathIn (dir name : String) : String :=
  if dir.toList.getLast? = some '/' then dir ++ name else dir ++ "/" ++ name

/-- Does something with every operand; the status says whether all of it could be done. -/
def forOperands (operands : List String) (step : String → Act Bool) : Act Nat := do
  let mut status := 0
  for x in operands do
    if !(← step x) then status := 1
  return status

/-- Complains, and says that something could not be done. -/
def refuse (text : String) : Act Bool := do
  complain text
  return false

/-- Complains about an operand that is missing. -/
def missingOperand (program : String) : Act Nat := do
  complain (program ++ ": missing operand")
  failWith ("Try " ++ inQuotes (program ++ " --help") ++ " for more information.") 1

/-! ## Making and removing -/

/-- Removes empty directories. -/
def rmdir (args : List String) : Act Nat :=
  withOptions "rmdir" "pv" [("parents", 'p')] 1 args fun o => do
    if o.operands.isEmpty then return ← missingOperand "rmdir"
    let paths := o.operands.flatMap fun path =>
      if o.has 'p' then
        let pieces := Text.splitOn "/" (String.ofList (withoutSlashes path))
        (List.range pieces.length).map fun i =>
          Text.joinWith "/" (pieces.take (pieces.length - i))
      else [path]
    forOperands paths fun path => do
      let m ← get
      let fault (text : String) : Act Bool :=
        refuse ("rmdir: failed to remove " ++ inQuotes path ++ ": " ++ text)
      match m.here.entry (diskPath path), m.place? path with
      | .ok (.dir .nil), some place => set (m.removeAt place); return true
      | .ok (.dir _), _ => fault "Directory not empty"
      | .ok (.file _), _ => fault "Not a directory"
      | .error e, _ => fault (reason e)

/-- Removes files, and directories if asked to. -/
def rm (args : List String) : Act Nat :=
  withOptions "rm" "rRfivd" [("recursive", 'r'), ("force", 'f'), ("verbose", 'v'), ("dir", 'd')] 1
  args fun o => do
    if o.operands.isEmpty then
      return ← if o.has 'f' then pure 0 else missingOperand "rm"
    forOperands o.operands fun path => do
      let m ← get
      let fault (text : String) : Act Bool :=
        refuse ("rm: cannot remove " ++ inQuotes path ++ ": " ++ text)
      let base := baseName path
      if (o.has 'r' || o.has 'R') && (base == "." || base == "..") then
        refuse ("rm: refusing to remove '.' or '..' directory: skipping " ++ inQuotes path)
      else
        match m.here.entry (diskPath path), m.newPlace path with
        | .ok entry, .ok place =>
          let allowed := match entry with
            | .file _ => true
            | .dir .nil => o.has 'r' || o.has 'R' || o.has 'd'
            | .dir _ => o.has 'r' || o.has 'R'
          if !allowed then fault "Is a directory"
          else
            set (m.removeAt place)
            if o.has 'v' then
              say ((match entry with
                | .dir _ => "removed directory "
                | .file _ => "removed ") ++ inQuotes path ++ "\n")
            return true
        | .error .notFound, .ok place =>
          if m.links.any (·.1 == place) then
            set (m.forget place)
            return true
          else if o.has 'f' then return true
          else fault "No such file or directory"
        | .error e, _ =>
          if o.has 'f' && (e == .notFound || e == .notADirectory) then return true
          else fault (reason e)
        | _, .error e => fault (reason e)

/-- Removes one file. -/
def unlink : List String → Act Nat
  | [path] => do
    let m ← get
    let fault (text : String) : Act Nat :=
      failWith ("unlink: cannot unlink " ++ inQuotes path ++ ": " ++ text) 1
    match m.here.entry (diskPath path), m.newPlace path with
    | .ok (.file _), .ok place =>
      set (m.removeAt place)
      return 0
    | .ok (.dir _), _ => fault "Is a directory"
    | .error e, _ | _, .error e => fault (reason e)
  | [] => missingOperand "unlink"
  | _ :: extra :: _ => failWith ("unlink: extra operand " ++ inQuotes extra) 1

/-- Makes files that do not exist. -/
def touch (args : List String) : Act Nat :=
  withOptions "touch" "acmd:t:r:h" [("no-create", 'c'), ("date", 'd'), ("reference", 'r')] 1 args
  fun o => do
    if o.operands.isEmpty then return ← failWith "touch: missing file operand" 1
    forOperands o.operands fun path => do
      let m ← get
      if m.exists? path then return true
      else if o.has 'c' then return true
      else
        match m.writeFile path "" with
        | .ok m => set m; return true
        | .error e => refuse ("touch: cannot touch " ++ inQuotes path ++ ": " ++ reason e)

/-- Cuts files or fills them up to a size. -/
def truncate (args : List String) : Act Nat :=
  withOptions "truncate" "s:cr:" [("size", 's'), ("no-create", 'c')] 1 args fun o => do
    let (sign, digits) := match (o.value? 's').getD "0" |>.toList with
      | c :: rest => if c.isDigit then ('=', c :: rest) else (c, rest)
      | [] => ('=', [])
    match sizeArgument? (String.ofList digits) with
    | none => failWith "truncate: Invalid number" 1
    | some n =>
      forOperands o.operands fun path => do
        let m ← get
        let old := (m.fileText path).toOption.getD ""
        let size := match sign with
          | '+' => old.length + n
          | '-' => old.length - n
          | _ => n
        if o.has 'c' && !m.exists? path then return true
        else
          let kept := String.ofList (old.toList.take size)
          match m.writeFile path (padRight size (Char.ofNat 0) kept) with
          | .ok m => set m; return true
          | .error e =>
            refuse ("truncate: cannot open " ++ inQuotes path ++ " for writing: " ++ reason e)

/-! ## Copying and moving -/

/-- Where something with a name goes: into the destination if that is a directory. -/
def destination (m : Machine) (into : Bool) (source target : String) : String :=
  if into && m.isDir target then pathIn target (baseName source) else target

/-- Puts a copy of an entry at a path. -/
def putEntry (m : Machine) (path : String) (entry : Entry) : Except FileError Machine := do
  let place ← m.newPlace path
  match m.disk.top.get? place, entry with
  | some (.dir _), .file _ => throw .isADirectory
  | some (.file _), .dir _ => throw .notADirectory
  | _, _ => pure (m.putAt place entry)

/-- Adds the entries of a directory to those of another one. -/
def mergeListing (target : Listing) : Listing → Listing
  | .nil => target
  | .file name content rest => mergeListing (target.set name (.file content)) rest
  | .dir name inside rest =>
    let old := match target.find? name with
      | some (.dir old) => old
      | _ => .nil
    mergeListing (target.set name (.dir (mergeListing old inside))) rest

/-- Copies files, and directories if asked to. -/
def cp (args : List String) : Act Nat :=
  withOptions "cp" "rRapfit:nTvuldLPHs" [("recursive", 'r'), ("archive", 'a'), ("force", 'f'),
    ("target-directory", 't'), ("no-clobber", 'n'), ("no-target-directory", 'T'),
    ("verbose", 'v'), ("update", 'u'), ("link", 'l')] 1 args fun o => do
    let (sources, target) := match o.value? 't' with
      | some dir => (o.operands, dir)
      | none => (o.operands.dropLast, o.operands.getLast?.getD "")
    if sources.isEmpty then
      return ← failWith (if target = "" then "cp: missing file operand"
        else "cp: missing destination file operand after " ++ inQuotes target) 1
    if 1 < sources.length && !(← get).isDir target then
      return ← failWith ("cp: target " ++ inQuotes target ++ ": " ++
        (if (← get).exists? target then "Not a directory" else "No such file or directory")) 1
    forOperands sources fun source => do
      let m ← get
      let path := destination m (!o.has 'T') source target
      let recursive := o.has 'r' || o.has 'R' || o.has 'a'
      match m.here.entry (diskPath source) with
      | .error e =>
        if Machine.isDevice source || (Machine.deviceChannel? source).isSome then
          match ← contentOf source with
          | .ok text =>
            match (← get).writeFile path text with
            | .ok m => set m; return true
            | .error e =>
              refuse ("cp: cannot create regular file " ++ inQuotes path ++ ": " ++ reason e)
          | .error e => refuse ("cp: cannot stat " ++ inQuotes source ++ ": " ++ reason e)
        else refuse ("cp: cannot stat " ++ inQuotes source ++ ": " ++ reason e)
      | .ok (.dir inside) =>
        if !recursive then
          refuse ("cp: -r not specified; omitting directory " ++ inQuotes source)
        else
          let old := match m.here.entry (diskPath path) with
            | .ok (.dir old) => old
            | _ => .nil
          match putEntry m path (.dir (mergeListing old inside)) with
          | .ok m => set m; return true
          | .error e =>
            refuse ("cp: cannot create directory " ++ inQuotes path ++ ": " ++ reason e)
      | .ok (.file content) =>
        if o.has 'n' && m.exists? path then return true
        else if (m.place? path).isSome && m.place? path == m.place? source then
          refuse ("cp: " ++ inQuotes source ++ " and " ++ inQuotes path ++ " are the same file")
        else
          let isNew := !m.exists? path
          match m.writeFile path (Bytes.ofArray content) with
          | .error e =>
            refuse ((if e == .isADirectory then "cp: cannot overwrite directory "
              else "cp: cannot create regular file ") ++ inQuotes path ++ ": " ++ reason e)
          | .ok m =>
            let m := match m.place? source, m.place? path with
              | some a, some b =>
                if o.has 'p' || o.has 'a' then m.setMode b (m.modeAt a)
                else if isNew then m.setMode b (m.modeAt a &&& (0o777 ^^^ m.umask))
                else m
              | _, _ => m
            set m
            if o.has 'v' then say (inQuotes source ++ " -> " ++ inQuotes path ++ "\n")
            return true

/-- Gives files and directories other names or places. -/
def mv (args : List String) : Act Nat :=
  withOptions "mv" "fint:Tvu" [("force", 'f'), ("no-clobber", 'n'), ("target-directory", 't'),
    ("no-target-directory", 'T'), ("verbose", 'v')] 1 args fun o => do
    let (sources, target) := match o.value? 't' with
      | some dir => (o.operands, dir)
      | none => (o.operands.dropLast, o.operands.getLast?.getD "")
    if sources.isEmpty then
      return ← failWith (if target = "" then "mv: missing file operand"
        else "mv: missing destination file operand after " ++ inQuotes target) 1
    if 1 < sources.length && !(← get).isDir target then
      return ← failWith ("mv: target " ++ inQuotes target ++ ": " ++
        (if (← get).exists? target then "Not a directory" else "No such file or directory")) 1
    forOperands sources fun source => do
      let m ← get
      let path := destination m (!o.has 'T') source target
      match m.here.entry (diskPath source), m.newPlace source with
      | .error e, _ | _, .error e =>
        refuse ("mv: cannot stat " ++ inQuotes source ++ ": " ++ reason e)
      | .ok entry, .ok place =>
        match m.newPlace path with
        | .error e =>
          refuse ("mv: cannot move " ++ inQuotes source ++ " to " ++ inQuotes path ++ ": " ++
            reason e)
        | .ok new =>
          if new = place then
            refuse ("mv: " ++ inQuotes source ++ " and " ++ inQuotes path ++ " are the same file")
          else if new.take place.length = place then
            refuse ("mv: cannot move " ++ inQuotes source ++ " to a subdirectory of itself, " ++
              inQuotes path)
          else if path.toList.getLast? = some '/' && !(m.isDir path) && (entry matches .file _) then
            refuse ("mv: cannot move " ++ inQuotes source ++ " to " ++ inQuotes path ++
              ": Not a directory")
          else if o.has 'n' && m.exists? path then return true
          else
            match m.disk.top.get? new, entry with
            | some (.dir _), .file _ =>
              refuse ("mv: cannot overwrite directory " ++ inQuotes path ++ " with non-directory")
            | some (.file _), .dir _ =>
              refuse ("mv: cannot overwrite non-directory " ++ inQuotes path ++
                " with directory " ++ inQuotes source)
            | some (.dir (.file ..)), .dir _ | some (.dir (.dir ..)), .dir _ =>
              refuse ("mv: cannot move " ++ inQuotes source ++ " to " ++ inQuotes path ++
                ": Directory not empty")
            | _, _ =>
              let mode := m.modes.find? (·.1 == place)
              let m := (m.removeAt place).putAt new entry
              let m := match mode with
                | some (_, mode) => m.setMode new mode
                | none => { m with modes := m.modes.filter (·.1 != new) }
              set m
              if o.has 'v' then
                say ("renamed " ++ inQuotes source ++ " -> " ++ inQuotes path ++ "\n")
              return true

/-- Gives files further names. -/
def ln (args : List String) : Act Nat :=
  withOptions "ln" "sfnTvrt:" [("symbolic", 's'), ("force", 'f'), ("no-dereference", 'n'),
    ("no-target-directory", 'T'), ("target-directory", 't')] 1 args fun o => do
    let (sources, target) := match o.value? 't', o.operands with
      | some dir, sources => (sources, dir)
      | none, [source] => ([source], ".")
      | none, operands => (operands.dropLast, operands.getLast?.getD "")
    if sources.isEmpty then return ← failWith "ln: missing file operand" 1
    if 1 < sources.length && !(← get).isDir target then
      return ← failWith ("ln: target " ++ inQuotes target ++ " is not a directory") 1
    forOperands sources fun source => do
      let m ← get
      let path := destination m (!o.has 'T' && !o.has 'n') source target
      let word := if o.has 's' then "symbolic link " else "hard link "
      match m.newPlace path with
      | .error e => refuse ("ln: failed to create " ++ word ++ inQuotes path ++ ": " ++ reason e)
      | .ok new =>
        let taken := (m.disk.top.get? new).isSome || m.links.any (·.1 == new)
        if taken && !o.has 'f' then
          refuse ("ln: failed to create " ++ word ++ inQuotes path ++ ": File exists")
        else if o.has 's' then
          let m := { m with links := (new, source) :: m.links.filter (·.1 != new) }
          let base := { m.disk with cwd := new.dropLast }
          match base.entry (diskPath source) with
          | .ok entry => set (m.putAt new entry)
          | .error _ => set m
          return true
        else
          match m.here.entry (diskPath source) with
          | .ok (.file content) =>
            let m := m.putAt new (.file content)
            match m.place? source with
            | some place => set (m.setMode new (m.modeAt place))
            | none => set m
            return true
          | .ok (.dir _) => refuse ("ln: " ++ source ++ ": hard link not allowed for directory")
          | .error e => refuse ("ln: failed to access " ++ inQuotes source ++ ": " ++ reason e)

/-! ## Permissions -/

/-- One change of permissions such as `u+x`, applied to a mode. -/
def changeMode (isDir : Bool) (umask : Nat) (mode : Nat) (change : String) : Option Nat :=
  let cs := change.toList
  let who := cs.takeWhile "ugoa".toList.contains
  let all := who.isEmpty || who.contains 'a'
  let reach := (if all || who.contains 'u' then 0o4700 else 0) |||
    (if all || who.contains 'g' then 0o2070 else 0) |||
    (if all || who.contains 'o' then 0o1007 else 0)
  let masked := if who.isEmpty then 0o7777 ^^^ (umask &&& 0o777) else 0o7777
  match cs.drop who.length with
  | op :: letters =>
    let bits? := letters.foldlM (fun bits c =>
      match c with
      | 'r' => some (bits ||| 0o444)
      | 'w' => some (bits ||| 0o222)
      | 'x' => some (bits ||| 0o111)
      | 'X' => some (if isDir || mode &&& 0o111 != 0 then bits ||| 0o111 else bits)
      | 's' => some (bits ||| 0o6000)
      | 't' => some (bits ||| 0o1000)
      | 'u' => some (bits ||| (mode / 0o100 % 8) * 0o111)
      | 'g' => some (bits ||| (mode / 0o10 % 8) * 0o111)
      | 'o' => some (bits ||| (mode % 8) * 0o111)
      | _ => none) 0
    bits?.bind fun bits =>
      let bits := bits &&& reach &&& masked
      match op with
      | '+' => some (mode ||| bits)
      | '-' => some (mode &&& (0o7777 ^^^ bits))
      | '=' => some ((mode &&& (0o7777 ^^^ (reach &&& 0o777))) ||| bits)
      | _ => none
  | [] => none

/-- Changes permissions as a text says. -/
def changeModes (isDir : Bool) (umask mode : Nat) (text : String) : Option Nat :=
  if !text.isEmpty && text.toList.all fun c => '0' ≤ c && c ≤ '7' then
    some (leadingNumber 8 text.toList).1
  else (Text.splitOn "," text).foldlM (changeMode isDir umask) mode

/-- The path itself and, if asked for, those of the directories on the way to it. -/
def pathsTo (all : Bool) (path : String) : List String :=
  let pieces := Text.splitOn "/" (String.ofList (withoutSlashes path))
  if all then
    ((List.range pieces.length).map fun i => Text.joinWith "/" (pieces.take (i + 1))).filter
      (· != "")
  else [path]

/-- Makes directories. -/
def mkdir (args : List String) : Act Nat :=
  withOptions "mkdir" "pm:v" [("parents", 'p'), ("mode", 'm'), ("verbose", 'v')] 1 args fun o => do
    if o.operands.isEmpty then return ← missingOperand "mkdir"
    let asked := o.value? 'm'
    let wanted? := asked.bind (changeModes true 0 0o777)
    if asked.isSome && wanted?.isNone then
      return ← failWith ("mkdir: invalid mode " ++ inQuotes (asked.getD "")) 1
    forOperands o.operands fun path => do
      let m ← get
      let made := if o.has 'p' then m.here.createDirs (diskPath path)
        else m.here.createDir (diskPath path)
      match made with
      | .ok disk =>
        set { m with disk := { disk with cwd := m.disk.cwd } }
        let usual := 0o777 &&& (0o777 ^^^ (m.umask &&& 0o777))
        for p in (pathsTo (o.has 'p') path).filter fun p => !m.exists? p do
          let isLast := withoutSlashes p == withoutSlashes path
          let mode := if isLast then wanted?.getD usual else usual ||| 0o300
          match (← get).place? p with
          | some place => if mode != 0o755 then modify (·.setMode place mode)
          | none => pure ()
          if o.has 'v' then say ("mkdir: created directory " ++ inQuotes p ++ "\n")
        return true
      | .error e => refuse ("mkdir: cannot create directory " ++ inQuotes path ++ ": " ++ reason e)

/-- The places of everything below a place, with it. -/
def placesBelow (top : Listing) (place : List String) : List (List String) :=
  let rec inside (here : List String) : Listing → List (List String)
    | .nil => []
    | .file name _ rest => (here ++ [name]) :: inside here rest
    | .dir name sub rest =>
      (here ++ [name]) :: (inside (here ++ [name]) sub ++ inside here rest)
  match top.get? place with
  | some (.dir sub) => place :: inside place sub
  | _ => [place]

/-- Permissions as letters. -/
def modeLetters (isDir : Bool) (mode : Nat) : String :=
  let letter (bit : Nat) (c : Char) : Char := if mode &&& bit != 0 then c else '-'
  let special (bit exec : Nat) (c : Char) : Char :=
    if mode &&& bit != 0 then (if mode &&& exec != 0 then c else c.toUpper)
    else letter exec 'x'
  String.ofList [if isDir then 'd' else '-', letter 0o400 'r', letter 0o200 'w',
    special 0o4000 0o100 's', letter 0o40 'r', letter 0o20 'w', special 0o2000 0o10 's',
    letter 0o4 'r', letter 0o2 'w', special 0o1000 0o1 't']

/-- A change of permissions as a message. -/
def modeMessage (path : String) (isDir : Bool) (old new : Nat) : String :=
  let shown (mode : Nat) : String :=
    padLeft 4 '0' (String.ofList (Nat.toDigits 8 mode)) ++ " (" ++
      String.ofList ((modeLetters isDir mode).toList.drop 1) ++ ")"
  "mode of " ++ inQuotes path ++
    (if old = new then " retained as " ++ shown new
      else " changed from " ++ shown old ++ " to " ++ shown new) ++ "\n"

/-- Changes permissions. -/
def chmod (args : List String) : Act Nat := do
  let isOption (arg : String) : Bool :=
    match arg.toList with
    | '-' :: '-' :: _ => true
    | '-' :: c :: cs => (c :: cs).all "Rvcf".toList.contains
    | _ => false
  let front := args.takeWhile (· != "--")
  let options := front.filter isOption
  let rest := front.filter (fun a => !isOption a) ++ (args.drop front.length).drop 1
  let has (c : Char) (word : String) : Bool :=
    options.any fun a => a == word || !Text.startsWith "--" a && a.toList.contains c
  let m ← get
  let model? := options.findSome? (Text.stripStart? "--reference=")
  let operands? : Except String (String × List String) := match model?, rest with
    | some model, files =>
      match m.place? model with
      | some place => .ok (String.ofList (Nat.toDigits 8 (m.modeAt place)), files)
      | none => .error ("failed to get attributes of " ++ inQuotes model ++
          ": No such file or directory")
    | none, [] => .error "missing operand"
    | none, [mode] => .error ("missing operand after " ++ inQuotes mode)
    | none, mode :: files => .ok (mode, files)
  match operands? with
  | .error e => failWith ("chmod: " ++ e) 1
  | .ok (mode, files) =>
    if (changeModes false 0 0 mode).isNone then
      return ← failWith ("chmod: invalid mode: " ++ inQuotes mode) 1
    forOperands files fun file => do
      let m ← get
      match m.here.locate (diskPath file) with
      | .error e =>
        if has 'f' "--silent" then return false
        else refuse ("chmod: cannot access " ++ inQuotes file ++ ": " ++ reason e)
      | .ok place =>
        let places := if has 'R' "--recursive" then placesBelow m.disk.top place else [place]
        for p in places do
          let isDir := (m.disk.top.get? p) matches some (.dir _)
          let old := m.modeAt p
          match changeModes isDir m.umask old mode with
          | some new =>
            modify (·.setMode p new)
            let path := Text.joinWith "/" (file :: p.drop place.length)
            if has 'v' "--verbose" || (has 'c' "--changes" && old != new) then
              say (modeMessage path isDir old new)
          | none => pure ()
        return true

/-- Copies files with permissions of their own, or makes directories. -/
def install (args : List String) : Act Nat :=
  withOptions "install" "dm:Dvpt:o:g:cbsT" [("directory", 'd'), ("mode", 'm'), ("verbose", 'v'),
    ("target-directory", 't'), ("no-target-directory", 'T')] 1 args fun o => do
    let mode := (o.value? 'm').getD "755"
    if o.has 'd' then
      let status ← mkdir ("-p" :: o.operands)
      if status = 0 then chmod (mode :: o.operands) else return status
    else
      let (sources, target) := match o.value? 't' with
        | some dir => (o.operands, dir)
        | none => (o.operands.dropLast, o.operands.getLast?.getD "")
      if sources.isEmpty then
        return ← failWith (if target = "" then "install: missing file operand"
          else "install: missing destination file operand after " ++ inQuotes target) 1
      if o.has 'D' then
        let _ ← mkdir ["-p", if o.has 't' then target else dirName target]
      let mut status := 0
      for source in sources do
        let path := destination (← get) (!o.has 'T') source target
        match ← contentOf source with
        | .error e =>
          complain ("install: cannot stat " ++ inQuotes source ++ ": " ++ reason e)
          status := 1
        | .ok text =>
          match (← get).writeFile path text with
          | .error e =>
            complain ("install: cannot create regular file " ++ inQuotes path ++ ": " ++ reason e)
            status := 1
          | .ok m =>
            set m
            if o.has 'v' then say (inQuotes source ++ " -> " ++ inQuotes path ++ "\n")
            status := max status (← chmod [mode, path])
      return status

/-- What is known about a file. -/
structure FileFacts where
  path : String
  isDir : Bool
  isDevice : Bool
  size : Nat
  mode : Nat

def factsOf (m : Machine) (path : String) : Except FileError FileFacts := do
  match ← m.kind path with
  | .dir =>
    let mode := ((m.place? path).map m.modeAt).getD 0o755
    return { path, isDir := true, isDevice := false, size := 4096, mode }
  | .file =>
    let mode := ((m.place? path).map m.modeAt).getD 0o644
    let size := ((m.fileText path).toOption.map String.length).getD 0
    return { path, isDir := false, isDevice := false, size, mode }
  | _ => return { path, isDir := false, isDevice := true, size := 0, mode := 0o666 }

/-- What a letter in a format stands for. -/
def FileFacts.text? (f : FileFacts) (c : Char) : Option String :=
  match c with
  | 'n' => some f.path
  | 's' => some (toString f.size)
  | 'a' => some (String.ofList (Nat.toDigits 8 f.mode))
  | 'A' => some (if f.isDevice then "c" ++ String.ofList ((modeLetters false f.mode).toList.drop 1)
      else modeLetters f.isDir f.mode)
  | 'F' => some (if f.isDir then "directory" else if f.isDevice then "character special file"
      else if f.size = 0 then "regular empty file" else "regular file")
  | 'u' | 'g' => some "0"
  | 'U' | 'G' => some "root"
  | 'h' => some "1"
  | 'N' => some (inQuotes f.path)
  | 'B' => some "512"
  | 'b' => some (toString (8 * ((f.size + 4095) / 4096)))
  | 'o' => some "4096"
  | 'f' =>
    let kind := if f.isDir then 0o40000 else if f.isDevice then 0o20000 else 0o100000
    some (String.ofList (Nat.toDigits 16 (kind + f.mode)))
  | '%' => some "%"
  | _ => none

/-- Fills facts into a format. -/
def FileFacts.render (f : FileFacts) : List Char → String
  | '%' :: c :: rest =>
    (f.text? c).getD "?" ++ render f rest
  | c :: rest => String.ofList [c] ++ render f rest
  | [] => ""

/-- Shows what is known about files. -/
def stat (args : List String) : Act Nat :=
  withOptions "stat" "c:P:Lft" [("format", 'c'), ("printf", 'P'), ("dereference", 'L')] 1 args
  fun o => do
    if o.operands.isEmpty then return ← missingOperand "stat"
    forOperands o.operands fun path => do
      match factsOf (← get) path with
      | .error e => refuse ("stat: cannot statx " ++ inQuotes path ++ ": " ++ reason e)
      | .ok facts =>
        match o.value? 'c', o.value? 'P' with
        | some f, _ => say (facts.render f.toList ++ "\n")
        | _, some f => say (unescape .program (facts.render f.toList)).1
        | _, _ =>
          say ("  File: " ++ path ++ "\n  Size: " ++ toString facts.size ++ "\n")
        return true

/-! ## Listing -/

/-- The mark behind a name that shows what it stands for. -/
def nameMark (m : Machine) (o : Options) (path : String) : String :=
  let isLink := (m.place? path).any fun p => m.links.any (·.1 == p)
  if isLink then (if o.has 'F' then "@" else "")
  else if m.isDir path && (o.has 'F' || o.has 'p') then "/"
  else if o.has 'F' && (m.place? path).any fun p =>
      (m.contentAt? p).isSome && m.modeAt p &&& 0o111 != 0 then "*"
  else ""

/-- One line of a long listing. -/
def longLine (width : Nat) (f : FileFacts) (name : String) : String :=
  modeLetters f.isDir f.mode ++ " 1 root root " ++ padLeft width ' ' (toString f.size) ++
    " Jan  1 00:00 " ++ name ++ "\n"

/-- The lines for some names, each with its path. -/
def listNames (m : Machine) (o : Options) (names : List (String × String)) : String :=
  let sizeOf' (path : String) : Nat := ((factsOf m path).toOption.map (·.size)).getD 0
  let names := if o.has 'S' && !o.has 'U' then
      names.mergeSort fun a b => sizeOf' b.2 ≤ sizeOf' a.2
    else names
  let names := if o.has 'r' then names.reverse else names
  if o.has 'l' || o.has 'n' || o.has 'g' || o.has 'o' then
    let facts := names.filterMap fun (name, path) =>
      (factsOf m path).toOption.map fun f => (name ++ nameMark m o path, f)
    let width := (facts.map fun (_, f) => (toString f.size).length).foldl max 1
    String.join (facts.map fun (name, f) => longLine width f name)
  else
    let shown := names.map fun (name, path) =>
      (if o.has 's' then toString (4 * ((sizeOf' path + 4095) / 4096)) ++ " " else "") ++
        (if o.has 'Q' then "\"" ++ name ++ "\"" else name) ++ nameMark m o path
    if o.last? ['m', '1', 'C', 'x'] == some 'm' then
      (if shown.isEmpty then "" else Text.joinWith ", " shown ++ "\n")
    else unlines shown

/-- The names that a listing of a directory shows. -/
def shownNames (m : Machine) (o : Options) (dir : String) : List (String × String) :=
  let names := m.namesIn dir
  let all := o.has 'a' || o.has 'f'
  let names := if all || o.has 'A' then names
    else names.filter fun n => !Text.startsWith "." n
  let names := if all then [".", ".."] ++ names else names
  names.map fun n => (n, pathIn dir n)

/-- The directories to list, in the order in which they are shown. -/
def listedDirs (m : Machine) (o : Options) : Nat → String → List String
  | 0, dir => [dir]
  | fuel + 1, dir =>
    if o.has 'R' then
      let inside := (shownNames m o dir).filter fun (n, p) => n != "." && n != ".." && m.isDir p
      let inside := if o.has 'r' then inside.reverse else inside
      dir :: inside.flatMap fun (_, p) => listedDirs m o fuel p
    else [dir]

/-- Lists files and directories. -/
def ls (args : List String) : Act Nat :=
  withOptions "ls" "1aAdlrRFpStUfmCxgnoshiQucXvLHkqNbBGw:I:T:Z" [("all", 'a'), ("color", 'k'),
    ("almost-all", 'A'), ("directory", 'd'), ("reverse", 'r'), ("recursive", 'R'),
    ("classify", 'F'), ("size", 's')] 2 args fun o => do
    let m ← get
    let operands := if o.operands.isEmpty then ["."] else o.operands
    let operands := operands.mergeSort fun a b => decide (a ≤ b)
    let mut status := 0
    for path in operands do
      match m.kind path with
      | .error e =>
        complain ("ls: cannot access " ++ inQuotes path ++ ": " ++ reason e)
        status := 2
      | .ok _ => pure ()
    let there := operands.filter m.exists?
    let isListed (p : String) : Bool := m.isDir p && !o.has 'd'
    let files := there.filter fun p => !isListed p
    let dirs := there.filter isListed
    let dirs := if o.has 'r' then dirs.reverse else dirs
    say (listNames m o (files.map fun p => (p, p)))
    let headers := 1 < operands.length || o.has 'R'
    let all := dirs.flatMap fun d => listedDirs m o 64 d
    for (dir, i) in all.zipIdx do
      let gap := if i = 0 && files.isEmpty then "" else "\n"
      let total := if o.has 'l' || o.has 's' then
          "total " ++ toString (((shownNames m o dir).map fun (_, p) =>
            match factsOf m p with
            | .ok f => 4 * ((f.size + 4095) / 4096)
            | .error _ => 0).foldl (· + ·) 0) ++ "\n"
        else ""
      say ((if headers then gap ++ dir ++ ":\n" else "") ++ total ++
        listNames m o (shownNames m o dir))
    return status

/-- The path of a place. -/
def placePath (place : List String) : String :=
  "/" ++ Text.joinWith "/" place

/-- Prints the target of links. -/
def readlink (args : List String) : Act Nat :=
  withOptions "readlink" "femnqsvz" [("canonicalize", 'f')] 1 args fun o => do
    forOperands o.operands fun path => do
      let m ← get
      let newline := if o.has 'n' then "" else "\n"
      match m.newPlace path with
      | .error _ => return false
      | .ok place =>
        if o.has 'f' || o.has 'm' || o.has 'e' then
          if o.has 'e' && !m.exists? path then return false
          say (placePath place ++ newline)
          return true
        else
          match m.links.find? (·.1 == place) with
          | some (_, target) => say (target ++ newline); return true
          | none => return false

/-- Prints paths from the top. -/
def realpath (args : List String) : Act Nat :=
  withOptions "realpath" "emsqz" [] 1 args fun o => do
    forOperands o.operands fun path => do
      let m ← get
      match m.newPlace path with
      | .ok place =>
        if o.has 'e' && !m.exists? path then
          refuse ("realpath: " ++ shownName path ++ ": No such file or directory")
        else
          say (placePath place ++ "\n")
          return true
      | .error e => refuse ("realpath: " ++ path ++ ": " ++ reason e)

/-- Makes a file or directory with a name of its own. -/
def mktemp (args : List String) : Act Nat :=
  withOptions "mktemp" "dqup:t" [("directory", 'd'), ("dry-run", 'u'), ("quiet", 'q'),
    ("tmpdir", 'p')] 1 args fun o => do
    let m ← get
    let fill (n : Nat) (template : String) : String :=
      let size := (template.toList.reverse.takeWhile (· == 'X')).length
      let digits := padLeft size 'a' (toString n)
      String.ofList (template.toList.take (template.length - size)) ++
        String.ofList (digits.toList.drop (digits.length - size))
    let template := match o.operands.head? with
      | some t => (match o.value? 'p' with
          | some dir => pathIn dir t
          | none => t)
      | none => pathIn ((o.value? 'p').getD "/tmp") "tmp.XXXXXXXXXX"
    let path := ((List.range 1000).map fun n => fill (m.nextPid + n) template).find? fun p =>
      !m.exists? p
    match path with
    | none => failWith "mktemp: failed to create file" 1
    | some path =>
      let made := if o.has 'u' then .ok m
        else if o.has 'd' then (m.here.createDir (diskPath path)).map fun disk =>
          { m with disk := { disk with cwd := m.disk.cwd } }
        else m.writeFile path ""
      match made with
      | .ok m =>
        let m := match m.place? path with
          | some place => m.setMode place (if o.has 'd' then 0o700 else 0o600)
          | none => m
        set m
        say (path ++ "\n")
        return 0
      | .error e =>
        failWith ("mktemp: failed to create file via template " ++ inQuotes template ++ ": " ++
          reason e) 1

/-- Copies blocks of bytes. -/
def dd (args : List String) : Act Nat := do
  let option (name : String) : Option String :=
    args.findSome? (Text.stripStart? (name ++ "="))
  let size := ((option "bs").bind sizeArgument?).getD 512
  let count (name : String) : Option Nat := (option name).bind sizeArgument?
  let demand := match count "count" with
    | some n => Machine.Demand.characters (size * (n + (count "skip").getD 0))
    | none => .everything
  let text ← match option "if" with
    | some file =>
      match ← contentUpTo demand file with
      | .ok text => pure text
      | .error e =>
        return ← failWith ("dd: failed to open " ++ inQuotes file ++ ": " ++ reason e) 1
    | none => takeUpTo demand 0
  let cs := text.toList.drop (size * (count "skip").getD 0)
  let cs := match count "count" with
    | some n => cs.take (size * n)
    | none => cs
  match option "of" with
  | some file =>
    match (← get).writeFile file (String.ofList cs) with
    | .ok m => set m
    | .error e =>
      return ← failWith ("dd: failed to open " ++ inQuotes file ++ ": " ++ reason e) 1
  | none => say (String.ofList cs)
  let records := toString (cs.length / size) ++ "+" ++ (if cs.length % size = 0 then "0" else "1")
  if option "status" != some "none" then
    complain (records ++ " records in")
    complain (records ++ " records out")
  return 0

end MarkerDoc.Shell.Utility
