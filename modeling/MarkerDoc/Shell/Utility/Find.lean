import MarkerDoc.Shell.Utility.Files
import MarkerDoc.Shell.Wildcard

/-!
# Searching directories, and commands on many arguments

Directories are walked through from the top down, and an expression says what is done with every
file.  Arguments can also be collected from the input and handed to a command.
-/

namespace MarkerDoc.Shell.Utility

namespace Find

/-- What is asked about a file or done with it. -/
inductive Test where
  | always (b : Bool)
  | name (pattern : String) (fold : Bool)
  | path (pattern : String)
  | kind (cs : List Char)
  | empty
  /-- The size in units; less, exactly or more. -/
  | size (order : Ordering) (n unit : Nat)
  | perm (mode : Nat) (kind : Char)
  | print (ending : String)
  | printf (format : String)
  | delete
  | prune
  | quit
  /-- Runs a command with the path in it, or keeps the path for one command at the end. -/
  | exec (args : List String) (batch : Bool)
  | negated (t : Test)
  | both (a b : Test)
  | either (a b : Test)
  | comma (a b : Test)

/-- Whether something is done, so that paths need not be printed. -/
def Test.acts : Test → Bool
  | .print _ | .printf _ | .delete | .exec .. => true
  | .negated t => t.acts
  | .both a b | .either a b | .comma a b => a.acts || b.acts
  | _ => false

structure Settings where
  least : Nat := 0
  most : Nat := 64
  bottomUp : Bool := false

abbrev Reader := StateT (List String × Settings) Option

def next : Reader String := do
  let (args, s) ← get
  match args with
  | a :: rest =>
    set (rest, s)
    return a
  | [] => failure

def peek : Reader (Option String) := do
  return (← get).1.head?

/-- A number that may be a bound. -/
def bound? (s : String) : Option (Ordering × Nat × Nat) :=
  let (order, cs) := match s.toList with
    | '+' :: rest => (Ordering.gt, rest)
    | '-' :: rest => (Ordering.lt, rest)
    | cs => (Ordering.eq, cs)
  let (digits, rest) := Decimal.digitsOf cs
  let unit : Option Nat := match rest with
    | [] | ['b'] => some 512
    | ['c'] => some 1
    | ['w'] => some 2
    | ['k'] => some 1024
    | ['M'] => some (1024 * 1024)
    | _ => none
  do some (order, ← (String.ofList digits).toNat?, ← unit)

mutual

def readOr : Nat → Reader Test
  | 0 => failure
  | fuel + 1 => do
    let a ← readAnd fuel
    match ← peek with
    | some "-o" | some "-or" =>
      let _ ← next
      return .either a (← readOr fuel)
    | some "," =>
      let _ ← next
      return .comma a (← readOr fuel)
    | _ => return a

def readAnd : Nat → Reader Test
  | 0 => failure
  | fuel + 1 => do
    let a ← readNot fuel
    match ← peek with
    | some "-a" | some "-and" =>
      let _ ← next
      return .both a (← readAnd fuel)
    | none | some "-o" | some "-or" | some ")" | some "," => return a
    | _ => return .both a (← readAnd fuel)

def readNot : Nat → Reader Test
  | 0 => failure
  | fuel + 1 => do
    match ← peek with
    | some "!" | some "-not" =>
      let _ ← next
      return .negated (← readNot fuel)
    | some "(" =>
      let _ ← next
      let t ← readOr fuel
      if (← next) = ")" then return t else failure
    | _ => readTest fuel

def readTest : Nat → Reader Test
  | 0 => failure
  | fuel + 1 => do
    match ← next with
    | "-name" => return .name (← next) false
    | "-iname" => return .name (← next) true
    | "-path" | "-wholename" => return .path (← next)
    | "-type" =>
      let s ← next
      return .kind (s.toList.filter (· != ','))
    | "-empty" => return .empty
    | "-size" =>
      match bound? (← next) with
      | some (order, n, unit) => return .size order n unit
      | none => failure
    | "-perm" =>
      let s ← next
      let (kind, digits) := match s.toList with
        | '-' :: rest => ('-', rest)
        | '/' :: rest => ('/', rest)
        | cs => ('=', cs)
      return .perm (leadingNumber 8 digits).1 kind
    | "-maxdepth" =>
      let n := (← next).toNat?.getD 0
      modify fun (args, s) => (args, { s with most := n })
      return .always true
    | "-mindepth" =>
      let n := (← next).toNat?.getD 0
      modify fun (args, s) => (args, { s with least := n })
      return .always true
    | "-depth" =>
      modify fun (args, s) => (args, { s with bottomUp := true })
      return .always true
    | "-delete" =>
      modify fun (args, s) => (args, { s with bottomUp := true })
      return .delete
    | "-print" => return .print "\n"
    | "-print0" => return .print (String.ofList [Char.ofNat 0])
    | "-printf" => return .printf (← next)
    | "-prune" => return .prune
    | "-quit" => return .quit
    | "-true" => return .always true
    | "-false" => return .always false
    | "-newer" =>
      let _ ← next
      return .always false
    | "-mtime" | "-mmin" | "-user" | "-group" =>
      let _ ← next
      return .always true
    | "-xdev" | "-mount" | "-follow" => return .always true
    | "-exec" => readExec fuel []
    | _ => failure

/-- The words of a command up to its end. -/
def readExec : Nat → List String → Reader Test
  | 0, _ => failure
  | fuel + 1, done => do
    match ← next with
    | ";" => return .exec done false
    | "+" =>
      if done.getLast? = some "\x7b\x7d" then return .exec done.dropLast true
      else readExec fuel (done ++ ["+"])
    | a => readExec fuel (done ++ [a])

end

/-- What a walk has come to. -/
structure Walk where
  /-- Paths that are kept for commands at the end. -/
  batches : List (List String × List String) := []
  ended : Bool := false
  status : Nat := 0

/-- Fills a path into a format. -/
def formatPath (m : Machine) (start path : String) : List Char → String
  | '%' :: c :: rest =>
    let shown := match c with
      | 'p' => path
      | 'f' => baseName path
      | 'h' => dirName path
      | 'P' => ((Text.stripStart? start path).bind (Text.stripStart? "/")).getD ""
      | 's' => ((factsOf m path).toOption.map fun f => toString f.size).getD ""
      | 'm' =>
        ((factsOf m path).toOption.map fun f => String.ofList (Nat.toDigits 8 f.mode)).getD ""
      | 'y' => if m.isDir path then "d" else "f"
      | '%' => "%"
      | c => String.ofList ['%', c]
    shown ++ formatPath m start path rest
  | c :: rest => String.ofList [c] ++ formatPath m start path rest
  | [] => ""

/-- Carries out an expression for a path: whether it holds, and whether to go inside. -/
def test (call : Caller) (start path : String) : Test → StateT Walk Act (Bool × Bool)
  | .always b => return (b, true)
  | .name pattern fold => do
    let low (s : String) : String := if fold then s.map Char.toLower else s
    return (wildMatch (programWildcards (low pattern)) (low (baseName path)).toList, true)
  | .path pattern => return (wildMatch (programWildcards pattern) path.toList, true)
  | .kind cs => do
    let m ← getThe Machine
    let c := match m.newPlace path, m.kind path with
      | .ok place, .ok kind =>
        if m.links.any (·.1 == place) then 'l' else if kind == .dir then 'd' else 'f'
      | _, _ => 'l'
    return (cs.contains c, true)
  | .empty => do
    let m ← getThe Machine
    return (if m.isDir path then (m.namesIn path).isEmpty
      else (m.fileText path).toOption == some "", true)
  | .size order n unit => do
    let size := ((factsOf (← getThe Machine) path).toOption.map (·.size)).getD 0
    return (compare ((size + unit - 1) / unit) n == order, true)
  | .perm mode kind => do
    let own := ((factsOf (← getThe Machine) path).toOption.map (·.mode)).getD 0
    return (match kind with
      | '-' => own &&& mode == mode
      | '/' => mode == 0 || own &&& mode != 0
      | _ => own == mode, true)
  | .print ending => do
    say (path ++ ending)
    return (true, true)
  | .printf format => do
    let m ← getThe Machine
    say (unescape .bare (formatPath m start path format.toList)).1
    return (true, true)
  | .delete => do
    let m ← getThe Machine
    match m.newPlace path with
    | .ok place =>
      if m.isDir path && !(m.namesIn path).isEmpty then
        complain ("find: cannot delete " ++ inQuotes path ++ ": Directory not empty")
        modifyThe Walk ({ · with status := 1 })
        return (false, true)
      else
        modifyThe Machine (·.removeAt place)
        return (true, true)
    | .error _ => return (false, true)
  | .prune => return (true, false)
  | .quit => do
    modifyThe Walk ({ · with ended := true })
    return (true, true)
  | .exec args batch => do
    if batch then
      modifyThe Walk fun w =>
        let old := ((w.batches.find? (·.1 == args)).map (·.2)).getD []
        { w with batches := w.batches.filter (·.1 != args) ++ [(args, old ++ [path])] }
      return (true, true)
    else
      let status ← call (args.map (Text.replace "\x7b\x7d" path))
      return (status == 0, true)
  | .negated t => do
    let (b, inside) ← test call start path t
    return (!b, inside)
  | .both a b => do
    let (x, inside) ← test call start path a
    if x then
      let (y, inside') ← test call start path b
      return (y, inside && inside')
    else return (false, inside)
  | .either a b => do
    let (x, inside) ← test call start path a
    if x then return (true, inside)
    else
      let (y, inside') ← test call start path b
      return (y, inside && inside')
  | .comma a b => do
    let (_, inside) ← test call start path a
    let (y, inside') ← test call start path b
    return (y, inside && inside')

/-- Walks through a directory. -/
def walk (call : Caller) (s : Settings) (t : Test) (start : String) :
    Nat → Nat → String → StateT Walk Act Unit
  | 0, _, _ => pure ()
  | fuel + 1, depth, path => do
    if (← getThe Walk).ended then pure ()
    else
      let names := (← getThe Machine).namesIn path
      let goInside : StateT Walk Act Unit := do
        if depth < s.most && (← getThe Machine).isDir path then
          for name in names do
            walk call s t start fuel (depth + 1) (pathIn path name)
      if s.bottomUp then
        goInside
        if s.least ≤ depth then
          let _ ← test call start path t
      else
        let inside ← if s.least ≤ depth then do
            let (_, inside) ← test call start path t
            pure inside
          else pure true
        if inside then goInside

end Find

/-- Searches directories. -/
def find (call : Caller) (args : List String) : Act Nat := do
  let isExpression (a : String) : Bool :=
    Text.startsWith "-" a || a == "!" || a == "("
  let args := args.filter fun a => a != "-L" && a != "-P" && a != "-H"
  let paths := args.takeWhile fun a => !isExpression a
  let rest := args.drop paths.length
  let paths := if paths.isEmpty then ["."] else paths
  let parsed : Option (Find.Test × Find.Settings) :=
    if rest.isEmpty then some (.print "\n", {})
    else
      match (Find.readOr (8 * rest.length + 8)).run (rest, {}) with
      | some (t, [], s) => some (if t.acts then t else .both t (.print "\n"), s)
      | _ => none
  match parsed with
  | none =>
    let bad := (rest.find? (Text.startsWith "-")).getD ""
    failWith ("find: unknown predicate " ++ inQuotes bad) 1
  | some (t, s) =>
    let mut w : Find.Walk := {}
    for path in paths do
      if (← get).exists? path then
        let (_, w') ← (Find.walk call s t path 128 0 path).run w
        w := w'
      else
        complain ("find: " ++ inQuotes path ++ ": No such file or directory")
        w := { w with status := 1 }
    for (command, found) in w.batches do
      if (← call (command ++ found)) != 0 then w := { w with status := 1 }
    return w.status

/-! ## Commands on many arguments -/

namespace Xargs

/-- Cuts text into arguments at blanks, where quotes and backslashes keep characters. -/
def items (word : Option (List Char)) : Option Char → List Char → List String
  | _, [] => (word.map fun w => String.ofList w.reverse).toList
  | some q, c :: cs =>
    if c = q then items (some (word.getD [])) none cs
    else items (some (c :: word.getD [])) (some q) cs
  | none, '\\' :: c :: cs => items (some (c :: word.getD [])) none cs
  | none, c :: cs =>
    if c = ' ' || c = '\t' || c = '\n' then
      (word.map fun w => String.ofList w.reverse).toList ++ items none none cs
    else if c = '"' || c = singleQuote then items (some (word.getD [])) (some c) cs
    else items (some (c :: word.getD [])) none cs

/-- The status of all commands together. -/
def joinStatus (all one : Nat) : Nat :=
  if one = 0 then all
  else if one = 127 || one = 126 then one
  else if one = 255 then 124
  else if 125 < one then 125
  else 123

end Xargs

/-- Runs a command on arguments from the input. -/
def xargs (call : Caller) (args : List String) : Act Nat := do
  match Options.readFront "n:I:0rd:L:tP:s:x" [("null", '0'), ("no-run-if-empty", 'r'),
    ("delimiter", 'd'), ("max-args", 'n'), ("replace", 'I'), ("max-lines", 'L'),
    ("max-procs", 'P'), ("verbose", 't')] args with
  | .error e => failWith ("xargs: " ++ e) 1
  | .ok o =>
    let text ← takeAll 0
    let command := if o.operands.isEmpty then ["echo"] else o.operands
    let divided (c : Char) : List String :=
      let parts := Text.splitOn (String.ofList [c]) text
      if parts.getLast? = some "" then parts.dropLast else parts
    let found := if o.has '0' then divided (Char.ofNat 0)
      else match o.value? 'd' with
        | some d => divided ((unescape .bare d).1.toList.headD '\n')
        | none =>
          if o.has 'I' then
            (textLines text).map (fun l => String.ofList (l.toList.dropWhile fun c =>
              c == ' ' || c == '\t')) |>.filter (· != "")
          else Xargs.items none none text.toList
    let runs : List (List String) := match o.value? 'I' with
      | some mark => found.map fun item => command.map (Text.replace mark item)
      | none =>
        let most := ((o.value? 'n').bind String.toNat?).orElse fun _ => none
        let batches := match most, (o.value? 'L').bind String.toNat? with
          | some n, _ => groups (max n 1) found
          | none, some n =>
            (groups (max n 1) ((textLines text).filter (!Text.isBlankText ·))).map fun ls =>
              ls.flatMap fun l => Xargs.items none none l.toList
          | none, none => [found]
        let batches := if found.isEmpty then (if o.has 'r' then [] else [[]]) else batches
        batches.map (command ++ ·)
    let mut status := 0
    for run in runs do
      if status != 124 && status != 126 && status != 127 then
        if o.has 't' then complain (Text.joinWith " " run)
        let one ← reading "" (call run)
        status := Xargs.joinStatus status one
    return status
where
  groups (size : Nat) (xs : List String) : List (List String) :=
    let rec go : Nat → List String → List (List String)
      | 0, _ => []
      | _, [] => []
      | fuel + 1, xs => xs.take size :: go fuel (xs.drop size)
    go (xs.length + 1) xs

end MarkerDoc.Shell.Utility
