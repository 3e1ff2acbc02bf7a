import MarkerDoc.Shell.Machine

/-!
# Conditions

The conditions that scripts test: comparisons of texts and numbers, and questions about files.
A word can be an operator or an operand; what it is depends on the words after it.  A reading
returns the words from the last one that it used on.
-/

namespace MarkerDoc.Shell

namespace Condition

/-- What a word of a condition is. -/
inductive Sign where
  | operand
  | unary
  | binary
  | negation
  | both
  | either
  | opening
  | closing
  /-- There is no further word. -/
  | none
deriving DecidableEq

/-- The operator that a word can be; some programs know one more. -/
def operator? (more : Bool) (word : String) : Option Sign :=
  match word with
  | "!" => some .negation
  | "-a" => some .both
  | "-o" => some .either
  | "(" => some .opening
  | ")" => some .closing
  | "==" => if more then some .binary else Option.none
  | _ =>
    if ["=", "!=", "<", ">", "-eq", "-ne", "-lt", "-le", "-gt", "-ge", "-nt", "-ot",
      "-ef"].contains word then some .binary
    else
      match word.toList with
      | ['-', c] => if "nzefdrwxscbphLSugktOG".toList.contains c then some .unary else Option.none
      | _ => Option.none

/-- What the first of some words is. -/
def sign (more : Bool) (words : List String) : Sign :=
  match words with
  | [] => .none
  | word :: rest =>
    match operator? more word with
    | some .unary =>
      let isOperand : Bool := match rest with
        | [] => true
        | [_] => false
        | next :: _ => operator? more next == some .binary
      if isOperand then .operand else .unary
    | some .opening => if rest.isEmpty then .operand else .opening
    | some found => found
    | Option.none => .operand

/-- A question about a file. -/
def fileTest (m : Machine) (op : Char) (path : String) : Bool :=
  let mode := (m.place? path).map m.modeAt
  match op, m.kind path with
  | 'e', .ok _ => true
  | 'f', .ok kind => kind == .file
  | 'd', .ok kind => kind == .dir
  | 'c', .ok kind => kind == .device
  | 'p', .ok kind => kind == .pipe
  | 'r', .ok _ | 'w', .ok _ => true
  | 'x', .ok kind => kind == .dir || (kind == .file && mode.any fun n => n &&& 0o111 != 0)
  | 's', .ok kind =>
    kind == .dir || (kind == .file && (m.fileText path).toOption.any (!·.isEmpty))
  | 'u', .ok _ => mode.any fun n => n &&& 0o4000 != 0
  | 'g', .ok _ => mode.any fun n => n &&& 0o2000 != 0
  | 'k', .ok _ => mode.any fun n => n &&& 0o1000 != 0
  | 'O', .ok _ | 'G', .ok _ => true
  | 'h', _ | 'L', _ =>
    match m.newPlace path with
    | .ok place => m.links.any (·.1 == place)
    | .error _ => false
  | _, _ => false

/-- A number as an operand, with blanks around it. -/
def number (s : String) : Except String Int :=
  match integer? (Text.trim s) with
  | some n =>
    if -(Int.pow 2 63) ≤ n && n < Int.pow 2 63 then .ok n else .error ("out of range: " ++ s)
  | Option.none => .error ("Illegal number: " ++ s)

def unary (m : Machine) (op arg : String) : Except String Bool :=
  match op with
  | "-n" => .ok (arg != "")
  | "-z" => .ok (arg == "")
  | "-t" => (number arg).map fun _ => false
  | _ =>
    match op.toList with
    | [_, c] => .ok (fileTest m c arg)
    | _ => .ok false

/-- A comparison.  Some programs take a file for newer than one that does not exist. -/
def binary (m : Machine) (more : Bool) (op a b : String) : Except String Bool := do
  match op with
  | "=" | "==" => return a == b
  | "!=" => return a != b
  | "<" => return a < b
  | ">" => return b < a
  | "-ef" => return (m.place? a).isSome && m.place? a == m.place? b
  | "-nt" => return more && m.exists? a && !m.exists? b
  | "-ot" => return more && m.exists? b && !m.exists? a
  | _ =>
    let x ← number a
    let y ← number b
    match op with
    | "-eq" => return x == y
    | "-ne" => return x != y
    | "-lt" => return x < y
    | "-le" => return x ≤ y
    | "-gt" => return y < x
    | _ => return y ≤ x

mutual

/-- Alternatives. -/
def readEither (m : Machine) (more : Bool) :
    Nat → Sign → List String → Except String (Bool × List String)
  | 0, _, _ => .error "too many arguments"
  | fuel + 1, first, words => do
    let (a, last) ← readBoth m more fuel first words
    if sign more (last.drop 1) = .either then
      let words := last.drop 2
      let (b, last) ← readEither m more fuel (sign more words) words
      return (a || b, last)
    else return (a, last)

/-- Conditions that have to hold together. -/
def readBoth (m : Machine) (more : Bool) :
    Nat → Sign → List String → Except String (Bool × List String)
  | 0, _, _ => .error "too many arguments"
  | fuel + 1, first, words => do
    let (a, last) ← readNegation m more fuel first words
    if sign more (last.drop 1) = .both then
      let words := last.drop 2
      let (b, last) ← readBoth m more fuel (sign more words) words
      return (a && b, last)
    else return (a, last)

/-- A condition or its opposite. -/
def readNegation (m : Machine) (more : Bool) :
    Nat → Sign → List String → Except String (Bool × List String)
  | 0, _, _ => .error "too many arguments"
  | fuel + 1, first, words =>
    if first = .negation then do
      let next := sign more (words.drop 1)
      let words := if next = .none then words else words.drop 1
      let (a, last) ← readNegation m more fuel next words
      return (!a, last)
    else readPrimary m more fuel first words

/-- A condition in brackets, a comparison, a question or a text, which holds if it is not
empty. -/
def readPrimary (m : Machine) (more : Bool) :
    Nat → Sign → List String → Except String (Bool × List String)
  | 0, _, _ => .error "too many arguments"
  | fuel + 1, first, words =>
    match first, words with
    | .none, words => .ok (false, words)
    | _, [] => .ok (false, [])
    | .opening, _ :: words =>
      let next := sign more words
      if next = .closing then .ok (false, words)
      else do
        let (a, last) ← readEither m more fuel next words
        if sign more (last.drop 1) = .closing then return (a, last.drop 1)
        else throw "closing paren expected"
    | .unary, op :: words =>
      match words with
      | [] => .error (op ++ ": argument expected")
      | arg :: _ => (unary m op arg).map fun a => (a, words)
    | _, a :: words =>
      if sign more words = .binary then
        match words with
        | op :: b :: rest => (binary m more op a b).map fun found => (found, b :: rest)
        | op :: [] => .error (op ++ ": argument expected")
        | [] => .ok (a != "", [a])
      else .ok (a != "", a :: words)

end

/-- Reads a whole condition by its operators. -/
def whole (m : Machine) (more : Bool) (first : Sign) (words : List String) :
    Except String Bool := do
  let (a, last) ← readEither m more (4 * words.length + 8) first words
  match last with
  | word :: _ :: _ => throw (word ++ ": unexpected operator")
  | _ => return a

/-- Whether a condition holds; the error is the complaint about it.  Three words with a comparison
in the middle are that comparison whatever the outer ones are. -/
def eval (m : Machine) (more : Bool) (words : List String) : Except String Bool :=
  let isComparison (words : List String) : Bool :=
    words.length == 3 && operator? more (words.getD 1 "") == some .binary
  let isBracketed (words : List String) : Bool :=
    (words.length == 3 || words.length == 4) && words.head? == some "(" &&
      words.getLast? == some ")"
  let positive (words : List String) : Except String Bool :=
    if isComparison words then whole m more .operand words
    else if isBracketed words then
      let inner := words.tail.dropLast
      whole m more (sign more inner) inner
    else whole m more (sign more words) words
  let isLong (words : List String) : Bool :=
    (words.length == 3 || words.length == 4) && !isComparison words && !isBracketed words
  match words with
  | [] => .ok false
  | "!" :: rest =>
    if isLong words then
      match rest with
      | "!" :: rest' =>
        if isLong rest then positive rest' else (positive rest).map (!·)
      | _ => (positive rest).map (!·)
    else positive words
  | _ => positive words

end Condition

/-- Tests a condition: the status says whether it holds or could not be read. -/
def testCondition (complainAbout : String → Act Unit) (program : String) (more : Bool)
    (words : List String) : Act Nat := do
  match Condition.eval (← get) more words with
  | .ok true => return 0
  | .ok false => return 1
  | .error e =>
    complainAbout (program ++ ": " ++ e)
    return 2

end MarkerDoc.Shell
