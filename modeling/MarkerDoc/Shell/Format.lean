import MarkerDoc.Shell.Decimal

/-!
# Formatted output

A format is a text with directives that say how values are written: their width, their precision
and the kind of notation.
-/

namespace MarkerDoc.Shell

/-- How one value is written. -/
structure Directive where
  left : Bool := false
  zeros : Bool := false
  plus : Bool := false
  space : Bool := false
  alternate : Bool := false
  width : Nat := 0
  precision : Option Nat := none
  kind : Char := 's'
deriving DecidableEq

namespace Directive

/-- Brings a text to the width. -/
def fill (d : Directive) (s : String) : String :=
  if d.left then padRight d.width ' ' s else padLeft d.width ' ' s

/-- Brings a number to the width, given its sign and its digits. -/
def fillNumber (d : Directive) (sign digits : String) : String :=
  if d.zeros && !d.left then sign ++ padLeft (d.width - sign.length) '0' digits
  else d.fill (sign ++ digits)

def string (d : Directive) (s : String) : String :=
  d.fill (match d.precision with
    | some n => String.ofList (s.toList.take n)
    | none => s)

def sign (d : Directive) (negative : Bool) : String :=
  if negative then "-" else if d.plus then "+" else if d.space then " " else ""

/-- A whole number in decimal notation with its sign, or one without sign in another base. -/
def integer (d : Directive) (n : Int) : String :=
  let natural := (if n < 0 then n + Int.pow 2 64 else n).toNat
  let (sign, lead, digits) := match d.kind with
    | 'o' => ("", if d.alternate then "0" else "", String.ofList (Nat.toDigits 8 natural))
    | 'x' => ("", if d.alternate && natural != 0 then "0x" else "",
        String.ofList (Nat.toDigits 16 natural))
    | 'X' => ("", if d.alternate && natural != 0 then "0X" else "",
        String.ofList ((Nat.toDigits 16 natural).map Char.toUpper))
    | 'u' => ("", "", toString natural)
    | _ => (d.sign (n < 0), "", toString n.natAbs)
  match d.precision with
  | some p =>
    let digits := if p = 0 && n = 0 then "" else padLeft p '0' digits
    d.fill (sign ++ lead ++ digits)
  | none => d.fillNumber (sign ++ lead) digits

/-- A real number. -/
def real (d : Directive) (x : Float) : String :=
  let places := d.precision.getD 6
  let sign := d.sign (Decimal.isNegative x)
  let upper := d.kind.isUpper
  let digits := match Decimal.special? x with
    | some s => s
    | none =>
      match d.kind.toLower with
      | 'f' => Decimal.fixed places x
      | 'e' => Decimal.scientific places x
      | _ => Decimal.general places d.alternate x
  let digits := if upper then digits.map Char.toUpper else digits
  if (Decimal.special? x).isSome then d.fill (sign ++ digits) else d.fillNumber sign digits

def flag? (d : Directive) (c : Char) : Option Directive :=
  match c with
  | '-' => some { d with left := true }
  | '0' => some { d with zeros := true }
  | '+' => some { d with plus := true }
  | ' ' => some { d with space := true }
  | '#' => some { d with alternate := true }
  | _ => none

/-- Reads flags. -/
def readFlags (d : Directive) : List Char → Directive × List Char
  | [] => (d, [])
  | c :: cs =>
    match d.flag? c with
    | some d => readFlags d cs
    | none => (d, c :: cs)

/-- A width or precision, which may be left to an argument. -/
def readSize (cs : List Char) : Option Nat × Bool × List Char :=
  match cs with
  | '*' :: rest => (none, true, rest)
  | cs =>
    let (digits, rest) := Decimal.digitsOf cs
    (if digits.isEmpty then none else (String.ofList digits).toNat?, false, rest)

end Directive

/-- A part of a format. -/
inductive FormatPart where
  | text (s : String)
  /-- A directive; the flags say whether its width and its precision are arguments. -/
  | directive (d : Directive) (width precision : Bool)
  /-- Something that cannot be a directive, as it is written. -/
  | broken (s : String)
  /-- The end of the output. -/
  | ending
deriving DecidableEq

/-- By whose rules a format is read. -/
inductive FormatRules where
  /-- Backslashes stand for themselves. -/
  | bare
  /-- Those of the command of the shell. -/
  | shell
  /-- Those of the program. -/
  | program
deriving DecidableEq

/-- Reads a directive after its percent sign; what cannot be one comes with nothing behind it. -/
def readDirective (rules : FormatRules) (cs : List Char) : FormatPart × List Char :=
  let (d, rest) := Directive.readFlags {} cs
  let (width, widthArg, rest) := Directive.readSize rest
  let d := { d with width := width.getD 0 }
  let (d, precisionArg, rest) := match rest with
    | '.' :: rest =>
      let (p, arg, rest) := Directive.readSize rest
      ({ d with precision := some (p.getD 0) }, arg, rest)
    | rest => (d, false, rest)
  let rest := if rules = .shell then rest
    else rest.dropWhile fun c => "lhLqjzt".toList.contains c
  match rest with
  | c :: after =>
    if rules = .bare || "sbcdiouxXfeEgGFaA".toList.contains c then
      (.directive { d with kind := c } widthArg precisionArg, after)
    else (.broken (String.ofList ('%' :: cs.take (cs.length - after.length))), [])
  | [] => (.broken "", [])

/-- The octal number of at most some digits in front of a text. -/
def octal (most : Nat) (cs : List Char) : Nat × List Char :=
  let digits := (cs.take most).takeWhile fun c => '0' ≤ c && c ≤ '7'
  ((leadingNumber 8 digits).1 % 256, cs.drop digits.length)

/-- The character that an escape stands for, and what follows it; programs also know codes to the
base sixteen. -/
def escape? (rules : FormatRules) (cs : List Char) : Option (Char × List Char) :=
  match cs with
  | 'a' :: rest => some (Char.ofNat 7, rest)
  | 'b' :: rest => some (Char.ofNat 8, rest)
  | 'e' :: rest => if rules = .bare then none else some (Char.ofNat 27, rest)
  | 'f' :: rest => some (Char.ofNat 12, rest)
  | 'n' :: rest => some ('\n', rest)
  | 'r' :: rest => some ('\r', rest)
  | 't' :: rest => some ('\t', rest)
  | 'v' :: rest => some (Char.ofNat 11, rest)
  | '\\' :: rest => some ('\\', rest)
  | 'x' :: rest =>
    let digits := (rest.take 2).takeWhile fun c => (digitValue? c).isSome
    if rules = .program && !digits.isEmpty then
      some (Char.ofNat (leadingNumber 16 digits).1, rest.drop digits.length)
    else none
  | c :: _ =>
    if '0' ≤ c && c ≤ '7' then
      let (n, rest) := octal 3 cs
      some (Char.ofNat n, rest)
    else none
  | [] => none

/-- Replaces the escapes in a text; the flag says whether output ends here. -/
def unescapeFrom (rules : FormatRules) : Nat → List Char → List Char × Bool
  | 0, _ => ([], false)
  | _, [] => ([], false)
  | fuel + 1, '\\' :: cs =>
    match cs with
    | 'c' :: _ => ([], true)
    | '0' :: rest =>
      let (n, rest) := octal 3 rest
      let (more, ends) := unescapeFrom rules fuel rest
      (Char.ofNat n :: more, ends)
    | cs =>
      match escape? rules cs with
      | some (c, rest) =>
        let (more, ends) := unescapeFrom rules fuel rest
        (c :: more, ends)
      | none =>
        let (more, ends) := unescapeFrom rules fuel cs
        ('\\' :: more, ends)
  | fuel + 1, c :: cs =>
    let (more, ends) := unescapeFrom rules fuel cs
    (c :: more, ends)

def unescape (rules : FormatRules) (s : String) : String × Bool :=
  let (cs, ends) := unescapeFrom rules (s.length + 1) s.toList
  (String.ofList cs, ends)

/-- Reads the parts of a format.  What cannot be a directive ends it. -/
def formatParts (rules : FormatRules) : Nat → List Char → List FormatPart
  | 0, _ => []
  | _, [] => []
  | fuel + 1, c :: cs =>
    let push (p : FormatPart) (rest : List Char) : List FormatPart :=
      p :: formatParts rules fuel rest
    if c = '%' then
      match cs with
      | '%' :: rest => push (.text "%") rest
      | cs =>
        let (p, rest) := readDirective rules cs
        push p rest
    else if c = '\\' && rules != .bare then
      match cs with
      | '"' :: rest => push (.text (if rules = .program then "\"" else "\\\"")) rest
      | 'c' :: rest => if rules = .program then [.ending] else push (.text "\\c") rest
      | cs =>
        match escape? rules cs with
        | some (d, rest) => push (.text (String.ofList [d])) rest
        | none => push (.text "\\") cs
    else push (.text (String.ofList [c])) cs

def readFormat (rules : FormatRules) (s : String) : List FormatPart :=
  formatParts rules (s.length + 1) s.toList

/-- The number that an argument spells, and the complaint about it. -/
def numberArgument (s : String) : Int × Option String :=
  let quoted := match s.toList with
    | q :: rest => if q == '"' || q == singleQuote then some rest else none
    | [] => none
  match quoted with
  | some (c :: _) => (c.toNat, none)
  | some [] => (0, none)
  | none =>
    if s = "" then (0, none)
    else
      let cs := s.toList.dropWhile (· == ' ')
      let (negative, digits) := match cs with
        | '-' :: rest => (true, rest)
        | '+' :: rest => (false, rest)
        | cs => (false, cs)
      if digits.head?.any Char.isDigit then
        let (n, rest) := basedNumber digits
        let value : Int := if negative then -(n : Int) else n
        let complaint := if !rest.isEmpty then some "not completely converted"
          else if saturate value != value then some "Numerical result out of range"
          else none
        (saturate value, complaint.map fun text => s ++ ": " ++ text)
      else (0, some (s ++ ": expected numeric value"))

/-- The real number that an argument spells, and the complaint about it. -/
def realArgument (s : String) : Float × Option String :=
  if s = "" then (0.0, none)
  else
    match Decimal.leading? (s.toList.dropWhile (· == ' ')) with
    | some (x, []) => (x, none)
    | some (x, _) => (x, some (s ++ ": not completely converted"))
    | none =>
      let (n, complaint) := numberArgument s
      (Decimal.ofInt n, complaint)

/-- What writing some values by a format has come to. -/
structure Written where
  text : String := ""
  args : List String := []
  complaints : List String := []
  /-- Whether output ends here. -/
  ended : Bool := false
  /-- Whether it ends because of something that cannot be a directive. -/
  isBroken : Bool := false

/-- Takes the next argument. -/
def Written.take (w : Written) : String × Written :=
  (w.args.headD "", { w with args := w.args.tail })

/-- Writes one part of a format. -/
def Written.part (rules : FormatRules) (w : Written) (p : FormatPart) : Written :=
  if w.ended then w
  else
    match p with
    | .text s => { w with text := w.text ++ s }
    | .ending => { w with ended := true }
    | .broken s =>
      let complaint := if s = "" then "missing format character" else s ++ ": invalid directive"
      { w with ended := true, isBroken := true, complaints := w.complaints ++ [complaint] }
    | .directive d widthArg precisionArg =>
      let (d, w) := if widthArg then
          let (arg, w) := w.take
          let n := (numberArgument arg).1
          ({ d with width := n.natAbs, left := d.left || n < 0 }, w)
        else (d, w)
      let (d, w) := if precisionArg then
          let (arg, w) := w.take
          let n := (numberArgument arg).1
          ({ d with precision := if n < 0 then none else some n.toNat }, w)
        else (d, w)
      let (arg, w) := w.take
      let add (w : Written) (s : String) (complaint : Option String) : Written :=
        { w with text := w.text ++ s, complaints := w.complaints ++ complaint.toList }
      if d.kind == 's' then add w (d.string arg) none
      else if d.kind == 'b' then
        let (s, ended) := unescape rules arg
        { add w (d.string s) none with ended }
      else if d.kind == 'c' then
        add w (d.fill (String.ofList [arg.toList.headD (Char.ofNat 0)])) none
      else if "diouxX".toList.contains d.kind then
        let (n, complaint) := numberArgument arg
        add w (d.integer n) complaint
      else
        let (x, complaint) := realArgument arg
        add w (d.real x) complaint

/-- Whether a part uses up arguments. -/
def FormatPart.takes : FormatPart → Bool
  | .directive .. => true
  | _ => false

/-- Writes arguments by a format, which is used again as long as arguments are left. -/
def Written.rounds (rules : FormatRules) (parts : List FormatPart) : Nat → Written → Written
  | 0, w => w
  | fuel + 1, w =>
    let w := parts.foldl (Written.part rules) w
    if w.args.isEmpty || w.ended || !parts.any FormatPart.takes then w
    else rounds rules parts fuel w

/-- Writes arguments by a format. -/
def formatted (rules : FormatRules) (format : String) (args : List String) : Written :=
  Written.rounds rules (readFormat rules format) (args.length + 1) { args }

end MarkerDoc.Shell
