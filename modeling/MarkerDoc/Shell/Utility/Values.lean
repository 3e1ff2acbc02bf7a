import MarkerDoc.Shell.Regex
import MarkerDoc.Shell.Utility.Lines

/-!
# Programs that work out values

Printing arguments, sequences of numbers, expressions, and the parts of paths.
-/

namespace MarkerDoc.Shell.Utility

/-- A message of the shell itself, with the script and the line. -/
def shellComplain (text : String) : Act Unit := do
  let m ← get
  complain (m.name ++ ": " ++ toString m.line ++ ": " ++ text)

/-- Prints its arguments.  The command of the shell always replaces escapes. -/
def echo (args : List String) : Act Nat := do
  let (newline, args) := match args with
    | "-n" :: rest => (false, rest)
    | args => (true, args)
  let (text, ends) := unescape .shell (Text.joinWith " " args)
  say (text ++ (if newline && !ends then "\n" else ""))
  return 0

/-- Prints its arguments as the program does, which replaces escapes only if asked to. -/
def echoProgram (args : List String) : Act Nat := do
  let isOption (arg : String) : Bool :=
    match arg.toList with
    | '-' :: c :: cs => (c :: cs).all "neE".toList.contains
    | _ => false
  let options := (args.takeWhile isOption).flatMap String.toList
  let text := Text.joinWith " " (args.dropWhile isOption)
  let escapes := (options.reverse.find? fun c => c == 'e' || c == 'E') == some 'e'
  let (text, ends) := if escapes then unescape .program text else (text, false)
  say (text ++ (if options.contains 'n' || ends then "" else "\n"))
  return 0

/-- Prints its arguments by a format. -/
def printf (rules : FormatRules) (complainAbout : String → Act Unit) (args : List String) :
    Act Nat := do
  let bad? := match args with
    | arg :: _ =>
      match arg.toList with
      | '-' :: c :: cs => if c = '-' && cs.isEmpty then none else some c
      | _ => none
    | [] => none
  match bad?, args with
  | some c, _ =>
    complainAbout ("printf: Illegal option -" ++ String.ofList [c])
    return 2
  | none, [] | none, ["--"] =>
    complainAbout "printf: usage: printf format [arg ...]"
    return if rules = .program then 1 else 2
  | none, first :: rest =>
    let args := if first = "--" then rest else args
    let w := formatted rules (args.headD "") args.tail
    for c in w.complaints do
      complainAbout ("printf: " ++ c)
    say w.text
    return if w.isBroken && rules = .shell then 2 else if w.complaints.isEmpty then 0 else 1

/-- The numbers of a sequence as multiples of a small unit. -/
def sequence (first step last : Int) : List Int :=
  if step = 0 then []
  else if 0 < step then
    (List.range ((last - first).fdiv step + 1).toNat).map fun (i : Nat) => first + step * (i : Int)
  else
    (List.range ((first - last).fdiv (-step) + 1).toNat).map fun (i : Nat) =>
      first + step * (i : Int)

/-- A decimal number as a whole number and its number of places; a power of ten may follow it. -/
def decimal? (s : String) : Option (Int × Nat) :=
  let (negative, body) := match s.toList with
    | '-' :: rest => (true, rest)
    | '+' :: rest => (false, rest)
    | cs => (false, cs)
  let (whole, rest) := Decimal.digitsOf body
  let (places, rest) := match rest with
    | '.' :: rest => Decimal.digitsOf rest
    | rest => ([], rest)
  let power : Option Int := match rest with
    | [] => some 0
    | c :: rest =>
      if c != 'e' && c != 'E' then none
      else
        match rest with
        | '-' :: ds => (String.ofList ds).toNat?.map fun n => -(n : Int)
        | '+' :: ds | ds => (String.ofList ds).toNat?.map fun n => (n : Int)
  power.bind fun power =>
    (String.ofList (whole ++ places)).toNat?.map fun n =>
      let value : Int := n * Int.pow 10 (power - places.length).toNat
      (if negative then -value else value, (places.length - power).toNat)

/-- A decimal number with a fixed number of places. -/
def decimalText (places : Nat) (n : Int) : String :=
  let digits := padLeft (places + 1) '0' (toString n.natAbs)
  let cut := digits.length - places
  let whole := String.ofList (digits.toList.take cut)
  let sign := if n < 0 then "-" else ""
  if places = 0 then sign ++ whole
  else sign ++ whole ++ "." ++ String.ofList (digits.toList.drop cut)

/-- Prints a sequence of numbers. -/
def seq (args : List String) : Act Nat := do
  let isNumber (arg : String) : Bool :=
    match arg.toList with
    | '-' :: c :: _ => c.isDigit || c == '.'
    | _ => false
  let front := args.takeWhile fun a => !isNumber a
  match Options.readFront "s:wf:" [("separator", 's'), ("equal-width", 'w'), ("format", 'f')]
      front with
  | .error e => failWith ("seq: " ++ e) 1
  | .ok o =>
    let numbers := o.operands ++ args.drop front.length
    match numbers.mapM decimal? with
    | none =>
      let bad := (numbers.find? fun n => (decimal? n).isNone).getD ""
      failWith ("seq: invalid floating point argument: " ++ inQuotes bad) 1
    | some values =>
      let bounds := match values with
        | [last] => some ((1, 0), (1, 0), last)
        | [first, last] => some (first, (1, 0), last)
        | [first, step, last] => some (first, step, last)
        | _ => none
      match bounds with
      | none =>
        failWith (if values.isEmpty then "seq: missing operand" else "seq: extra operand") 1
      | some (first, step, last) =>
        let most := max first.2 (max step.2 last.2)
        let scale (x : Int × Nat) : Int := x.1 * Int.pow 10 (most - x.2)
        let places := max first.2 step.2
        let shown := (sequence (scale first) (scale step) (scale last)).map fun n =>
          match o.value? 'f' with
          | some f =>
            let x := Decimal.ofInt n / Decimal.ofInt (Int.pow 10 most)
            String.join ((readFormat .bare f).map fun
              | .text s => s
              | .directive d _ _ => d.real x
              | _ => "")
          | none => decimalText places (n / Int.pow 10 (most - places))
        let width := (shown.map String.length).foldl max 0
        let shown := if o.has 'w' then shown.map fun s =>
            match s.toList with
            | '-' :: rest => "-" ++ padLeft (width - 1) '0' (String.ofList rest)
            | _ => padLeft width '0' s
          else shown
        if step.1 = 0 then failWith "seq: invalid Zero increment value: '0'" 1
        else
          if !shown.isEmpty then say (Text.joinWith ((o.value? 's').getD "\n") shown ++ "\n")
          return 0

/-! ## Expressions in arguments -/

namespace Expr

/-- Whether a text counts as false. -/
def isNull (s : String) : Bool :=
  s == "" || (integer? s == some 0 && s != "+0")

def number (s : String) : Except String Int :=
  match integer? s with
  | some n => .ok n
  | none => .error "non-integer argument"

/-- The part of a text that an expression matches from its start: what its first group matched, or
the length. -/
def matched (text pattern : String) : Except String String :=
  match Regex.read? {} pattern with
  | none => .error "invalid expression"
  | some r =>
    let cs := text.toList.toArray
    let hasGroup := Text.contains "\\(" pattern
    match r.matchAt? cs 0 with
    | some m => .ok (if hasGroup then m.groupText cs 1 else toString m.stop)
    | none => .ok (if hasGroup then "" else "0")

def combine (op a b : String) : Except String String := do
  match op with
  | "|" => return if isNull a then (if isNull b then "0" else b) else a
  | "&" => return if isNull a || isNull b then "0" else a
  | ":" => matched a b
  | "+" => return toString ((← number a) + (← number b))
  | "-" => return toString ((← number a) - (← number b))
  | "*" => return toString ((← number a) * (← number b))
  | "/" | "%" =>
    let x ← number a
    let y ← number b
    if y = 0 then throw "division by zero"
    return toString (if op = "/" then x.tdiv y else x.tmod y)
  | _ =>
    let order := match integer? a, integer? b with
      | some x, some y => compare x y
      | _, _ => compare a b
    let holds : Bool := match op with
      | "<" => order == .lt
      | "<=" => order != .gt
      | "=" | "==" => order == .eq
      | "!=" => order != .eq
      | ">=" => order != .lt
      | _ => order == .gt
    return if holds then "1" else "0"

/-- How tightly an operator binds. -/
def precedence? (op : String) : Option Nat :=
  match op with
  | "|" => some 1
  | "&" => some 2
  | "<" | "<=" | "=" | "==" | "!=" | ">=" | ">" => some 3
  | "+" | "-" => some 4
  | "*" | "/" | "%" => some 5
  | ":" => some 6
  | _ => none

mutual

def readBinary : Nat → Nat → List String → Except String (String × List String)
  | 0, _, _ => .error "syntax error"
  | fuel + 1, least, args => do
    let (a, rest) ← readOperand fuel args
    readMore fuel least a rest

def readMore : Nat → Nat → String → List String → Except String (String × List String)
  | 0, _, _, _ => .error "syntax error"
  | fuel + 1, least, a, args => do
    match args with
    | op :: rest =>
      match precedence? op with
      | some p =>
        if least ≤ p then
          let (b, rest) ← readBinary fuel (p + 1) rest
          readMore fuel least (← combine op a b) rest
        else return (a, args)
      | none => return (a, args)
    | [] => return (a, [])

def readOperand : Nat → List String → Except String (String × List String)
  | 0, _ => .error "syntax error"
  | fuel + 1, args => do
    match args with
    | [] => throw "syntax error: missing argument"
    | "(" :: rest =>
      let (a, rest) ← readBinary fuel 1 rest
      match rest with
      | ")" :: rest => return (a, rest)
      | _ => throw "syntax error: expecting ')'"
    | "+" :: a :: rest => return (a, rest)
    | "length" :: rest =>
      if rest.isEmpty then return ("length", [])
      else
        let (a, rest) ← readOperand fuel rest
        return (toString a.length, rest)
    | "match" :: a :: b :: rest => return (← matched a b, rest)
    | "index" :: a :: b :: rest =>
      let at_ := a.toList.findIdx? fun c => b.toList.contains c
      return (toString (at_.map (· + 1) |>.getD 0), rest)
    | "substr" :: s :: from_ :: size :: rest =>
      match integer? from_, integer? size with
      | some n, some k =>
        if n ≤ 0 || k ≤ 0 then return ("", rest)
        else return (String.ofList ((s.toList.drop (n - 1).toNat).take k.toNat), rest)
      | _, _ => return ("", rest)
    | a :: rest => return (a, rest)

end

end Expr

/-- Works out an expression whose parts are arguments. -/
def expr (args : List String) : Act Nat := do
  let args := match args with
    | "--" :: rest => rest
    | args => args
  if args.isEmpty then return ← failWith "expr: missing operand" 2
  match Expr.readBinary (8 * args.length + 8) 1 args with
  | .ok (value, []) =>
    say (value ++ "\n")
    return if Expr.isNull value then 1 else 0
  | .ok (_, s :: _) =>
    failWith ("expr: syntax error: unexpected argument " ++ inQuotes s) 2
  | .error e => failWith ("expr: " ++ e) 2

/-! ## Parts of paths -/

/-- A path without slashes at its end. -/
def withoutSlashes (path : String) : List Char :=
  Text.dropEndWhile (· == '/') path.toList

/-- The last name of a path. -/
def baseName (path : String) : String :=
  let cs := withoutSlashes path
  if cs.isEmpty then (if path = "" then "" else "/")
  else String.ofList (cs.reverse.takeWhile (· != '/')).reverse

/-- A path without its last name. -/
def dirName (path : String) : String :=
  let cs := withoutSlashes path
  if cs.isEmpty then (if path = "" then "." else "/")
  else
    let front := (cs.reverse.dropWhile (· != '/')).reverse
    if front.isEmpty then "."
    else
      let dir := Text.dropEndWhile (· == '/') front
      if dir.isEmpty then "/" else String.ofList dir

/-- A name without an ending, unless that would leave nothing. -/
def withoutEnding (ending name : String) : String :=
  match Text.stripEnd? ending name with
  | some front => if front = "" then name else front
  | none => name

/-- Prints the last names of paths. -/
def basename (args : List String) : Act Nat := do
  match Options.readFront "as:z" [("multiple", 'a'), ("suffix", 's')] args with
  | .error e => failWith ("basename: " ++ e) 1
  | .ok o =>
    let ending := (o.value? 's').getD ""
    match o.operands with
    | [] => failWith "basename: missing operand" 1
    | path :: more =>
      if o.has 'a' || o.has 's' then
        say (unlines ((path :: more).map fun p => withoutEnding ending (baseName p)))
        return 0
      else
        match more with
        | [] => say (baseName path ++ "\n"); return 0
        | [ending] => say (withoutEnding ending (baseName path) ++ "\n"); return 0
        | _ :: extra :: _ => failWith ("basename: extra operand " ++ inQuotes extra) 1

/-- Prints paths without their last names. -/
def dirname (args : List String) : Act Nat := do
  let paths := args.filter (· != "--")
  if paths.isEmpty then failWith "dirname: missing operand" 1
  else
    say (unlines (paths.map dirName))
    return 0

/-! ## Small programs -/

/-- A length of time in milliseconds. -/
def duration? (s : String) : Option Nat := do
  let (x, rest) ← Decimal.leading? s.toList
  let unit ← match String.ofList rest with
    | "" | "s" => some 1000.0
    | "m" => some 60000.0
    | "h" => some 3600000.0
    | "d" => some 86400000.0
    | _ => none
  if x < 0.0 then none else some (Decimal.toInt (x * unit)).toNat

/-- Lets time pass. -/
def sleep (args : List String) : Act Nat := do
  match args.mapM duration? with
  | some [] => failWith "sleep: missing operand" 1
  | some times =>
    modify fun m => { m with clock := m.clock + times.foldl (· + ·) 0 }
    return 0
  | none =>
    let bad := (args.find? fun a => (duration? a).isNone).getD ""
    failWith ("sleep: invalid time interval " ++ inQuotes bad) 1

/-- Repeats its arguments without end. -/
def yes (args : List String) : Act Nat := do
  let line := (if args.isEmpty then "y" else Text.joinWith " " args) ++ "\n"
  sayForever line
  return 141

/-- Prints variables that other programs get to see. -/
def printenv (args : List String) : Act Nat := do
  let all := (← get).environment
  if args.isEmpty then
    say (unlines (all.map fun (name, value) => name ++ "=" ++ value))
    return 0
  else
    let found := args.filterMap fun name => (all.find? (·.1 == name)).map (·.2)
    say (unlines found)
    return if found.length = args.length then 0 else 1

/-- Prints the name of the system. -/
def uname (args : List String) : Act Nat := do
  let shown := if args.isEmpty || args.contains "-s" then "Linux"
    else if args.contains "-m" then "x86_64"
    else if args.contains "-o" then "GNU/Linux" else "Linux"
  say (shown ++ "\n")
  return 0

/-- Prints who the user is. -/
def id (args : List String) : Act Nat := do
  let names := args.any fun a => a.toList.contains 'n'
  let one := args.any fun a => "ugG".toList.any a.toList.contains
  say (if one then (if names then "root\n" else "0\n")
    else "uid=0(root) gid=0(root) groups=0(root)\n")
  return 0

end MarkerDoc.Shell.Utility
