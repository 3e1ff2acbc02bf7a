import MarkerDoc.Shell.Machine

/-!
# Arithmetic

Expressions of whole numbers of 64 bits, with the operators and precedences that are usual in
languages with assignment expressions.  Names stand for the values of variables.
-/

namespace MarkerDoc.Shell

inductive Expression where
  | constant (n : Int)
  | name (s : String)
  /-- Gives a variable a value, which may depend on its old one by an operator. -/
  | assign (s op : String) (e : Expression)
  | unary (op : String) (e : Expression)
  | binary (op : String) (a b : Expression)
  | choose (condition a b : Expression)
deriving DecidableEq

/-- The smallest part of an expression. -/
inductive Lexeme where
  | number (n : Int)
  | name (s : String)
  | operator (s : String)
deriving DecidableEq

/-- A number as 64 bits hold it. -/
def wrap (n : Int) : Int :=
  n.bmod (Nat.pow 2 64)

/-- A number that is too large becomes the largest one. -/
def saturate (n : Int) : Int :=
  max (-(Int.pow 2 63)) (min n (Int.pow 2 63 - 1))

/-- The value of a digit in bases up to sixteen. -/
def digitValue? (c : Char) : Option Nat :=
  if c.isDigit then some (c.toNat - 0x30)
  else if 'a' ≤ c && c ≤ 'f' then some (c.toNat - 0x61 + 10)
  else if 'A' ≤ c && c ≤ 'F' then some (c.toNat - 0x41 + 10)
  else none

/-- The number that the digits of a base in front of a text spell, and what follows them. -/
def leadingNumber (base : Nat) (cs : List Char) : Nat × List Char :=
  let digits := cs.takeWhile fun c => (digitValue? c).any (· < base)
  (digits.foldl (fun n c => base * n + (digitValue? c).getD 0) 0, cs.drop digits.length)

/-- A number whose base is shown by the way it begins, and what follows it. -/
def basedNumber (cs : List Char) : Nat × List Char :=
  match cs with
  | '0' :: x :: d :: rest =>
    if (x == 'x' || x == 'X') && (digitValue? d).isSome then leadingNumber 16 (d :: rest)
    else leadingNumber 8 cs
  | '0' :: _ => leadingNumber 8 cs
  | cs => leadingNumber 10 cs

/-- The number that all characters spell in any base, with a sign. -/
def wholeInteger? (cs : List Char) : Option Int :=
  let (negative, digits) := match cs with
    | '-' :: rest => (true, rest)
    | '+' :: rest => (false, rest)
    | cs => (false, cs)
  if digits.head?.any Char.isDigit then
    match basedNumber digits with
    | (n, []) => some (if negative then -n else n)
    | _ => none
  else none

namespace Expression

/-- The operators, longer ones before those that they begin with. -/
def operators : List String :=
  ["<<=", ">>=", "<<", ">>", "<=", ">=", "==", "!=", "&&", "||", "*=", "/=", "%=", "+=", "-=",
    "&=", "^=", "|=", "<", ">", "=", "!", "~", "+", "-", "*", "/", "%", "&", "^", "|", "?", ":",
    "(", ")"]

/-- Cuts an expression into its smallest parts.  A character that begins none stands for
itself. -/
def lexemes : Nat → List Char → List Lexeme
  | 0, _ => []
  | _, [] => []
  | fuel + 1, c :: cs =>
    if c = ' ' || c = '\t' || c = '\n' then lexemes fuel cs
    else if c.isDigit then
      let (n, rest) := basedNumber (c :: cs)
      .number (saturate n) :: lexemes fuel rest
    else if isNameStart c then
      let name := (c :: cs).takeWhile isNameChar
      .name (String.ofList name) :: lexemes fuel ((c :: cs).drop name.length)
    else
      let found := operators.findSome? fun op =>
        (Text.afterLead? op.toList (c :: cs)).map fun rest => (op, rest)
      let (op, rest) := found.getD (String.ofList [c], cs)
      .operator op :: lexemes fuel rest

/-- How tightly an operator between two operands binds. -/
def precedence? (op : String) : Option Nat :=
  match op with
  | "||" => some 1
  | "&&" => some 2
  | "|" => some 3
  | "^" => some 4
  | "&" => some 5
  | "==" | "!=" => some 6
  | "<" | ">" | "<=" | ">=" => some 7
  | "<<" | ">>" => some 8
  | "+" | "-" => some 9
  | "*" | "/" | "%" => some 10
  | _ => none

/-- The operator that an assignment combines with, which may be none. -/
def assignment? (op : String) : Option String :=
  match op with
  | "=" => some ""
  | "*=" => some "*"
  | "/=" => some "/"
  | "%=" => some "%"
  | "+=" => some "+"
  | "-=" => some "-"
  | "<<=" => some "<<"
  | ">>=" => some ">>"
  | "&=" => some "&"
  | "^=" => some "^"
  | "|=" => some "|"
  | _ => none

/-- The result of reading a part of an expression, with what follows it; the error says what was
expected. -/
abbrev Reading := Except String (Expression × List Lexeme)

mutual

/-- A whole expression. -/
def readWhole : Nat → List Lexeme → Reading
  | 0, _ => .error "expecting primary"
  | fuel + 1, ls =>
    let choice : Reading := do
      let (condition, rest) ← readBinary fuel 1 ls
      match rest with
      | .operator "?" :: rest =>
        let (a, rest) ← readWhole fuel rest
        match rest with
        | .operator ":" :: rest =>
          let (b, rest) ← readWhole fuel rest
          return (.choose condition a b, rest)
        | _ => throw "expecting ':'"
      | rest => return (condition, rest)
    match ls with
    | .name s :: .operator op :: rest =>
      match assignment? op with
      | some op => do
        let (e, rest) ← readWhole fuel rest
        return (.assign s op e, rest)
      | none => choice
    | _ => choice

/-- Operands joined by operators that bind at least as tightly as given. -/
def readBinary : Nat → Nat → List Lexeme → Reading
  | 0, _, _ => .error "expecting primary"
  | fuel + 1, least, ls => do
    let (first, rest) ← readUnary fuel ls
    readMore fuel least first rest

/-- The operators and operands after the first operand. -/
def readMore : Nat → Nat → Expression → List Lexeme → Reading
  | 0, _, _, _ => .error "expecting primary"
  | fuel + 1, least, first, ls =>
    match ls with
    | .operator op :: rest =>
      match precedence? op with
      | some p =>
        if least ≤ p then do
          let (second, rest) ← readBinary fuel (p + 1) rest
          readMore fuel least (.binary op first second) rest
        else .ok (first, ls)
      | none => .ok (first, ls)
    | _ => .ok (first, ls)

/-- An operand with the signs in front of it. -/
def readUnary : Nat → List Lexeme → Reading
  | 0, _ => .error "expecting primary"
  | fuel + 1, ls =>
    match ls with
    | .number n :: rest => .ok (.constant n, rest)
    | .name s :: rest => .ok (.name s, rest)
    | .operator "(" :: rest => do
      let (e, rest) ← readWhole fuel rest
      match rest with
      | .operator ")" :: rest => return (e, rest)
      | _ => throw "expecting ')'"
    | .operator op :: rest =>
      if ["!", "~", "+", "-"].contains op then do
        let (e, rest) ← readUnary fuel rest
        return (.unary op e, rest)
      else .error "expecting primary"
    | [] => .error "expecting primary"

end

/-- Reads an expression. -/
def read (text : String) : Except String Expression := do
  let cs := text.toList
  let ls := lexemes (cs.length + 1) cs
  match ← readWhole (16 * ls.length + 16) ls with
  | (e, []) => return e
  | _ => throw "expecting EOF"

def truth (b : Bool) : Int := if b then 1 else 0

/-- Works out an operator; nothing if a number is divided by zero. -/
def combine? (op : String) (a b : Int) : Option Int :=
  match op with
  | "|" => some (Int.ofNat ((wrap a).toInt64.toBitVec ||| (wrap b).toInt64.toBitVec).toNat)
  | "^" => some (Int.ofNat ((wrap a).toInt64.toBitVec ^^^ (wrap b).toInt64.toBitVec).toNat)
  | "&" => some (Int.ofNat ((wrap a).toInt64.toBitVec &&& (wrap b).toInt64.toBitVec).toNat)
  | "==" => some (truth (a == b))
  | "!=" => some (truth (a != b))
  | "<" => some (truth (a < b))
  | ">" => some (truth (b < a))
  | "<=" => some (truth (a ≤ b))
  | ">=" => some (truth (b ≤ a))
  | "<<" => some (a * Int.pow 2 (b % 64).toNat)
  | ">>" => some (a.fdiv (Int.pow 2 (b % 64).toNat))
  | "+" => some (a + b)
  | "-" => some (a - b)
  | "*" => some (a * b)
  | "/" => if b = 0 then none else some (a.tdiv b)
  | "%" => if b = 0 then none else some (a.tmod b)
  | _ => none

/-- What is wrong with an expression. -/
inductive Fault where
  /-- The expression cannot be read or worked out. -/
  | expression (what : String)
  /-- The value of a variable is no number. -/
  | value (text : String)
  /-- A variable cannot be changed. -/
  | constant (variableName : String)

/-- The complaint about an expression. -/
def Fault.message (text : String) : Fault → String
  | .expression what => "arithmetic expression: " ++ what ++ ": \"" ++ text ++ "\""
  | .value s => "Illegal number: " ++ s
  | .constant s => s ++ ": is read only"

/-- The value of a name: that of the variable, or zero if it has none.  Blanks around it do not
matter. -/
def valueOf (m : Machine) (name : String) : Except Fault Int :=
  let value := (m.parameter? name).getD ""
  let isBlank (c : Char) : Bool := c == ' ' || ('\t' ≤ c && c ≤ '\r')
  let digits := Text.dropEndWhile isBlank (value.toList.dropWhile isBlank)
  if digits.isEmpty then .ok 0
  else
    match wholeInteger? digits with
    | some n => if saturate n = n then .ok n else .error (.value value)
    | none => .error (.value value)

/-- Works out an expression. -/
def eval (m : Machine) : Expression → Except Fault (Int × Machine)
  | .constant n => .ok (n, m)
  | .name s => (valueOf m s).map fun n => (n, m)
  | .unary op e => do
    let (n, m) ← eval m e
    let value := match op with
      | "!" => truth (n == 0)
      | "~" => -n - 1
      | "-" => -n
      | _ => n
    .ok (wrap value, m)
  | .choose condition a b => do
    let (n, m) ← eval m condition
    if n != 0 then eval m a else eval m b
  | .binary op a b => do
    let (x, m) ← eval m a
    if op = "&&" then
      if x = 0 then .ok (0, m)
      else
        let (y, m) ← eval m b
        .ok (truth (y != 0), m)
    else if op = "||" then
      if x != 0 then .ok (1, m)
      else
        let (y, m) ← eval m b
        .ok (truth (y != 0), m)
    else
      let (y, m) ← eval m b
      match combine? op x y with
      | some n => .ok (wrap n, m)
      | none => .error (.expression "division by zero")
  | .assign s op e => do
    let (y, m) ← eval m e
    let n ← if op = "" then (.ok y : Except Fault Int)
      else
        let x ← valueOf m s
        match combine? op x y with
        | some n => .ok (wrap n)
        | none => .error (.expression "division by zero")
    if m.isConstant s then .error (.constant s)
    else .ok (n, m.set s (toString n))

/-- Reads an expression and works it out; the error is the complaint about it. -/
def evalText (m : Machine) (text : String) : Except String (Int × Machine) :=
  match read text with
  | .error what => .error (Fault.message text (.expression what))
  | .ok e => (eval m e).mapError (Fault.message text)

end Expression

end MarkerDoc.Shell
