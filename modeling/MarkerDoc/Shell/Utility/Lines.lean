import MarkerDoc.Shell.Format
import MarkerDoc.Shell.Options

/-!
# Programs that show lines

Programs that copy text, whole or in part, and may number, reverse or fold its lines.
-/

namespace MarkerDoc.Shell.Utility

/-- A character as it is shown when others cannot be printed. -/
def visible (keepTabs : Bool) (c : Char) : String :=
  let low (n : Nat) : String :=
    if n < 32 then String.ofList ['^', Char.ofNat (n + 64)]
    else if n = 127 then "^?"
    else String.ofList [Char.ofNat n]
  if c = '\n' || (c = '\t' && keepTabs) then String.ofList [c]
  else if c.toNat < 128 then low c.toNat
  else "M-" ++ low (c.toNat - 128)

/-- Copies files one after the other. -/
def cat (args : List String) : Act Nat :=
  withOptions "cat" "nbsvetuAET" [("number", 'n'), ("number-nonblank", 'b'), ("squeeze-blank", 's'),
    ("show-nonprinting", 'v'), ("show-all", 'A'), ("show-ends", 'E'), ("show-tabs", 'T')] 1 args
  fun o => do
    let (found, ok) ← contentsOf (plainComplaint "cat") o.operands
    let text := String.join (found.map (·.2))
    if o.given.all (·.1 == 'u') then say text
    else
      let has (cs : String) : Bool := cs.toList.any o.has
      let showLine (line : String) : String :=
        let body := if has "vetA" then
            String.join (line.toList.map (visible (!has "tTA")))
          else if has "T" then
            String.join (line.toList.map fun c => if c = '\t' then "^I" else String.ofList [c])
          else line
        if has "eEA" && body.toList.getLast? == some '\n' then
          String.ofList body.toList.dropLast ++ "$\n"
        else body
      let (shown, _, _) := (brokenLines text).foldl (fun (shown, n, wasBlank) line =>
        let blank := line == "\n"
        if blank && wasBlank && has "s" then (shown, n, true)
        else if has "b" && blank || !has "nb" then (shown ++ showLine line, n, blank)
        else (shown ++ padLeft 6 ' ' (toString n) ++ "\t" ++ showLine line, n + 1, blank))
        ("", 1, false)
      say shown
    return if ok then 0 else 1

/-- A count with a unit behind it. -/
def sizeArgument? (s : String) : Option Nat :=
  let (digits, rest) := Decimal.digitsOf s.toList
  let unit : Option Nat := match String.ofList rest with
    | "" => some 1
    | "b" => some 512
    | "kB" => some 1000
    | "k" | "K" | "KiB" => some 1024
    | "MB" => some 1000000
    | "M" | "MiB" => some (1024 * 1024)
    | _ => none
  if digits.isEmpty then none
  else do some ((← (String.ofList digits).toNat?) * (← unit))

/-- The old way of writing a count: a hyphen and a number. -/
def oldCount (args : List String) : List String :=
  match args with
  | arg :: rest =>
    match arg.toList with
    | '-' :: c :: cs =>
      if c.isDigit then
        let (digits, letters) := Decimal.digitsOf (c :: cs)
        let kind := if letters.contains 'c' then "-c" else "-n"
        (kind ++ String.ofList digits) :: rest
      else args
    | _ => args
  | [] => []

/-- The header in front of a file, where there are several. -/
def fileHeader (first : Bool) (name : String) : String :=
  let shown := if name = "-" then "standard input" else name
  (if first then "" else "\n") ++ "==> " ++ shown ++ " <==\n"

/-- Shows parts of files with headers between them, reading what is asked for; the part comes with
what was not needed. -/
def showParts (program : String) (o : Options) (demand : Machine.Demand)
    (part : String → String × String) : Act Nat := do
  let (found, ok) ← contentsUpTo demand (openComplaint program) o.operands
  let headers := (1 < o.operands.length || o.has 'v') && !o.has 'q'
  let mut first := true
  for (name, text) in found do
    let (shown, rest) := part text
    if name = "-" then giveBack 0 rest
    say ((if headers then fileHeader first name else "") ++ shown)
    first := false
  return if ok then 0 else 1

/-- Shows the beginnings of files. -/
def head (args : List String) : Act Nat :=
  withOptions "head" "n:c:qvz" [("lines", 'n'), ("bytes", 'c'), ("quiet", 'q'), ("silent", 'q'),
    ("verbose", 'v')] 1 (oldCount args) fun o => do
    let bytes := o.last? ['n', 'c'] == some 'c'
    let count := (o.value? (if bytes then 'c' else 'n')).getD "10"
    let (fromEnd, digits) := match count.toList with
      | '-' :: rest => (true, String.ofList rest)
      | '+' :: rest => (false, String.ofList rest)
      | _ => (false, count)
    match sizeArgument? digits with
    | none =>
      failWith ("head: invalid number of " ++ (if bytes then "bytes" else "lines") ++ ": " ++
        inQuotes count) 1
    | some n =>
      let demand := if fromEnd then .everything else if bytes then .characters n else .lines n
      showParts "head" o demand fun text =>
        let units := if bytes then text.toList.map (String.ofList [·]) else brokenLines text
        let k := if fromEnd then units.length - n else n
        (String.join (units.take k), String.join (units.drop k))

/-- Shows the ends of files. -/
def tail (args : List String) : Act Nat :=
  let args := match args with
    | arg :: rest =>
      match arg.toList with
      | '+' :: c :: cs => if c.isDigit then ("-n+" ++ String.ofList (c :: cs)) :: rest else args
      | _ => oldCount args
    | [] => []
  withOptions "tail" "n:c:qvfFz" [("lines", 'n'), ("bytes", 'c'), ("quiet", 'q'), ("silent", 'q'),
    ("verbose", 'v')] 1 args fun o => do
    let bytes := o.last? ['n', 'c'] == some 'c'
    let count := (o.value? (if bytes then 'c' else 'n')).getD "10"
    let (fromStart, digits) := match count.toList with
      | '+' :: rest => (true, String.ofList rest)
      | '-' :: rest => (false, String.ofList rest)
      | _ => (false, count)
    match sizeArgument? digits with
    | none =>
      failWith ("tail: invalid number of " ++ (if bytes then "bytes" else "lines") ++ ": " ++
        inQuotes count) 1
    | some n =>
      showParts "tail" o .everything fun text =>
        let units := if bytes then text.toList.map (String.ofList [·]) else brokenLines text
        let k := if fromStart then n - 1 else units.length - n
        (String.join (units.drop k), "")

/-- Copies the input to files and to the output. -/
def tee (args : List String) : Act Nat :=
  withOptions "tee" "aip" [("append", 'a')] 1 args fun o => do
    let text ← takeAll 0
    say text
    let mut status := 0
    for file in o.operands do
      let m ← get
      match Machine.deviceChannel? file with
      | some channel => modify fun m => (m.write channel text).2
      | none =>
        let old := if o.has 'a' then (m.fileText file).toOption.getD "" else ""
        match m.writeFile file (old ++ text) with
        | .ok m => set m
        | .error e =>
          complain (plainComplaint "tee" file e)
          status := 1
    return status

/-- Shows lines in reverse order. -/
def tac (args : List String) : Act Nat := do
  let (found, ok) ← contentsOf (fun file e => "tac: failed to open " ++ inQuotes file ++
    " for reading: " ++ reason e) (args.filter (· != "--"))
  for (_, text) in found do
    say (String.join (brokenLines text).reverse)
  return if ok then 0 else 1

/-- Shows every line backwards. -/
def rev (args : List String) : Act Nat := do
  let (found, ok) ← contentsOf (fun file e => "rev: cannot open " ++ file ++ ": " ++ reason e)
    (args.filter (· != "--"))
  for (_, text) in found do
    say (String.join ((brokenLines text).map fun line =>
      let body := line.toList.filter (· != '\n')
      String.ofList body.reverse ++ (if body.length < line.length then "\n" else "")))
  return if ok then 0 else 1

/-- Numbers lines. -/
def nl (args : List String) : Act Nat :=
  withOptions "nl" "b:w:s:n:v:i:h:f:pl:d:" [("body-numbering", 'b'), ("number-width", 'w'),
    ("number-separator", 's'), ("number-format", 'n'), ("starting-line-number", 'v'),
    ("line-increment", 'i')] 1 args fun o => do
    let (found, ok) ← contentsOf (plainComplaint "nl") o.operands
    let width := ((o.value? 'w').bind String.toNat?).getD 6
    let separator := (o.value? 's').getD "\t"
    let step := ((o.value? 'i').bind integer?).getD 1
    let start := ((o.value? 'v').bind integer?).getD 1
    let style := (o.value? 'b').getD "t"
    let (shown, _) := (brokenLines (String.join (found.map (·.2)))).foldl (fun (shown, n) line =>
      let numbered := style == "a" || (style == "t" && line != "\n")
      let line := if line.toList.getLast? == some '\n' then line else line ++ "\n"
      if numbered then
        let number := match o.value? 'n' with
          | some "ln" => padRight width ' ' (toString n)
          | some "rz" =>
            ({ zeros := true, width, kind := 'd' : Directive }).integer n
          | _ => padLeft width ' ' (toString n)
        (shown ++ number ++ separator ++ line, n + step)
      else (shown ++ padLeft (width + separator.length) ' ' "" ++ line, n)) ("", (start : Int))
    say shown
    return if ok then 0 else 1

/-- Breaks a line that is wider than allowed, after a blank if that is asked for. -/
def foldLine (width : Nat) (atBlanks : Bool) : Nat → List Char → List (List Char)
  | 0, cs => [cs]
  | fuel + 1, cs =>
    if cs.length ≤ width || width = 0 then [cs]
    else
      let front := cs.take width
      let kept := front.reverse.dropWhile (· != ' ')
      let size := if atBlanks && !kept.isEmpty then kept.length else width
      cs.take size :: foldLine width atBlanks fuel (cs.drop size)

/-- Breaks wide lines. -/
def fold (args : List String) : Act Nat :=
  let args := args.map fun arg =>
    match arg.toList with
    | '-' :: c :: cs => if c.isDigit then "-w" ++ String.ofList (c :: cs) else arg
    | _ => arg
  withOptions "fold" "w:sb" [("width", 'w'), ("spaces", 's'), ("bytes", 'b')] 1 args fun o => do
    let (found, ok) ← contentsOf (plainComplaint "fold") o.operands
    let width := ((o.value? 'w').bind String.toNat?).getD 80
    for (_, text) in found do
      say (String.join ((brokenLines text).map fun line =>
        let body := line.toList.filter (· != '\n')
        let parts := foldLine width (o.has 's') (body.length + 1) body
        Text.joinWith "\n" (parts.map String.ofList) ++
          (if body.length < line.length then "\n" else "")))
    return if ok then 0 else 1

/-- The width of the counts: wide enough for the size of all files. -/
def countWidth (m : Machine) (files : List String) (found : List (String × String))
    (columns : Nat) : Nat :=
  if columns = 1 && files.length ≤ 1 then 1
  else
    let names := if files.isEmpty then ["-"] else files
    let isFile (name : String) : Bool :=
      if name = "-" then (m.stream? 0).any fun
        | .reading _ isFile => isFile
        | _ => false
      else m.kind name matches .ok .file
    let least := if names.all fun n => isFile n || !(m.exists? n || n == "-") then 1 else 7
    let sizes := found.map fun (name, text) => if isFile name then text.length else 0
    let total := sizes.foldl (· + ·) 0
    max least (toString total).length

/-- Counts lines, words and characters. -/
def wc (args : List String) : Act Nat :=
  withOptions "wc" "lwcmL" [("lines", 'l'), ("words", 'w'), ("bytes", 'c'), ("chars", 'm'),
    ("max-line-length", 'L')] 1 args fun o => do
    let before ← get
    let mut ok := true
    let mut found := []
    for file in (if o.operands.isEmpty then ["-"] else o.operands) do
      match ← contentOf file with
      | .ok text => found := found ++ [(file, text, true)]
      | .error e =>
        complain (plainComplaint "wc" file e)
        ok := false
        if e == .isADirectory then found := found ++ [(file, "", true)]
    let all := o.given.isEmpty
    let counts (text : String) : List Nat :=
      let cs := text.toList
      let lines := if all || o.has 'l' then [cs.count '\n'] else []
      let blank (c : Char) : Bool := c == ' ' || ('\t' ≤ c && c ≤ '\r')
      let words := if all || o.has 'w' then
        [(cs.foldl (fun (n, inWord) c =>
          if blank c then (n, false) else (if inWord then n else n + 1, true)) (0, false)).1]
        else []
      let chars := if o.has 'm' then [cs.length] else []
      let bytes := if all || o.has 'c' then [cs.length] else []
      let widest := if o.has 'L' then
        [((textLines text).map String.length).foldl max 0] else []
      lines ++ words ++ chars ++ bytes ++ widest
    let rows := found.map fun (name, text, _) => (name, counts text)
    let columns := (counts "").length
    let width := countWidth before o.operands (found.map fun (n, t, _) => (n, t)) columns
    let row (ns : List Nat) (name : String) : String :=
      Text.joinWith " " (ns.map fun n => padLeft width ' ' (toString n)) ++
        (if name = "" then "" else " " ++ name) ++ "\n"
    for (name, ns) in rows do
      say (row ns (if o.operands.isEmpty then "" else name))
    if 1 < o.operands.length then
      let sums := (List.range columns).map fun i =>
        let column := rows.map fun (_, ns) => ns.getD i 0
        if o.has 'L' && i + 1 = columns then column.foldl max 0 else column.foldl (· + ·) 0
      say (row sums "total")
    return if ok then 0 else 1

end MarkerDoc.Shell.Utility
