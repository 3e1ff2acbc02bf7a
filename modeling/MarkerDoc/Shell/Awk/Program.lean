import MarkerDoc.Shell.Format

/-!
# Programs for records and fields

A program is a list of rules.  Every record of the input, usually a line, is cut into fields, and
the rules whose patterns fit it are carried out.
-/

namespace MarkerDoc.Shell.Awk

inductive Expr where
  | number (text : String)
  | string (s : String)
  | regex (pattern : String)
  | var (name : String)
  | field (e : Expr)
  | element (name : String) (keys : List Expr)
  /-- Gives a target a value, which may depend on its old one by an operator. -/
  | assign (target : Expr) (op : String) (value : Expr)
  | choose (condition a b : Expr)
  | both (a b : Expr)
  | either (a b : Expr)
  /-- Whether an array has a key. -/
  | member (keys : List Expr) (name : String)
  /-- Whether a text matches an expression, or does not. -/
  | like (negated : Bool) (a b : Expr)
  | compare (op : String) (a b : Expr)
  | concat (a b : Expr)
  | binary (op : String) (a b : Expr)
  | unary (op : String) (e : Expr)
  /-- Counts a target up or down, and has its value before or after that. -/
  | count (before : Bool) (delta : Int) (target : Expr)
  | call (name : String) (args : List Expr)
  | builtin (name : String) (args : List Expr)
  /-- Reads a record: of the input, of a file (`<`) or of a command (`|`). -/
  | getline (kind : String) (source target : Option Expr)
  /-- Several expressions in parentheses. -/
  | list (es : List Expr)

inductive Stmt where
  | block (body : List Stmt)
  | expr (e : Expr)
  /-- Prints expressions, maybe by a format, and maybe elsewhere. -/
  | print (formatted : Bool) (args : List Expr) (redirection : String) (target : Option Expr)
  | choose (condition : Expr) (a b : Stmt)
  | loop (condition : Expr) (body : Stmt)
  | loopAfter (body : Stmt) (condition : Expr)
  | count (start : Stmt) (condition : Option Expr) (step body : Stmt)
  | each (name array : String) (body : Stmt)
  | next
  | exit (e : Option Expr)
  | result (e : Option Expr)
  | leave
  | again
  | delete (name : String) (keys : Option (List Expr))

structure Function where
  name : String
  params : List String
  body : Stmt

/-- When a rule is carried out. -/
inductive Pattern where
  | first
  | last
  | always
  | holds (e : Expr)
  | range (a b : Expr)

structure Rule where
  pattern : Pattern
  /-- Without an action, the record is printed. -/
  action : Option Stmt

structure Program where
  rules : List Rule := []
  functions : List Function := []

/-! ## Symbols -/

/-- What a program is written in. -/
inductive Symbol where
  | number (text : String)
  | string (s : String)
  | regex (pattern : String)
  | name (s : String)
  /-- A name right in front of a parenthesis. -/
  | function (s : String)
  | keyword (s : String)
  | builtin (s : String)
  | op (s : String)
  | newline
deriving DecidableEq

def keywords : List String :=
  ["BEGIN", "END", "function", "func", "if", "else", "while", "for", "do", "break", "continue",
    "next", "exit", "return", "delete", "in", "getline", "print", "printf", "nextfile"]

def builtins : List String :=
  ["length", "substr", "index", "split", "sub", "gsub", "match", "sprintf", "sin", "cos", "atan2",
    "exp", "log", "sqrt", "int", "rand", "srand", "tolower", "toupper", "system", "close", "fflush"]

/-- The operators, longer ones before those that they begin with. -/
def operators : List String :=
  ["\x7b", "\x7d", "(", ")", "[", "]", ";", ",", "+=", "-=", "*=", "/=", "%=", "^=", "==", "<=",
    ">=", "!=", "++", "--", "&&", "||", ">>", "!~", "+", "-", "*", "/", "%", "^", "!", ">", "<",
    "|", "?", ":", "~", "$", "="]

/-- Whether a slash after a symbol divides, and does not open an expression. -/
def divides : Option Symbol → Bool
  | some (.number _) | some (.string _) | some (.name _) | some (.builtin _) => true
  | some (.op s) => s == ")" || s == "]" || s == "$" || s == "++" || s == "--"
  | _ => false

/-- The text of a string up to its closing quote, with its escapes replaced. -/
def stringText : Nat → List Char → Option (List Char × List Char)
  | 0, _ => none
  | _, [] => none
  | fuel + 1, c :: cs =>
    let push (front rest : List Char) : Option (List Char × List Char) :=
      (stringText fuel rest).map fun (a, b) => (front ++ a, b)
    if c = '"' then some ([], cs)
    else if c = '\n' then none
    else if c = '\\' then
      match cs with
      | '\n' :: rest => push [] rest
      | '"' :: rest => push ['"'] rest
      | '/' :: rest => push ['/'] rest
      | cs =>
        match escape? .bare cs with
        | some (d, rest) => push [d] rest
        | none =>
          match cs with
          | d :: rest => push ['\\', d] rest
          | [] => none
    else push [c] cs

/-- The text of an expression up to its closing slash. -/
def regexText : Bool → List Char → Option (List Char × List Char)
  | _, [] => none
  | _, ['\\'] => none
  | inSet, '\\' :: c :: rest =>
    (regexText inSet rest).map fun (a, b) =>
      (if c = '/' then '/' :: a else '\\' :: c :: a, b)
  | inSet, c :: rest =>
    if c = '/' && !inSet then some ([], rest)
    else if c = '\n' then none
    else (regexText (if c = '[' then true else if c = ']' then false else inSet) rest).map
      fun (a, b) => (c :: a, b)

/-- Cuts a program into symbols; `last` is the symbol before. -/
def symbols : Nat → Option Symbol → List Char → Option (List Symbol)
  | 0, _, _ => none
  | _, _, [] => some []
  | fuel + 1, last, c :: cs =>
    let push (s : Symbol) (rest : List Char) : Option (List Symbol) :=
      (symbols fuel (some s) rest).map (s :: ·)
    if c = ' ' || c = '\t' || c = '\r' then symbols fuel last cs
    else if c = '\n' then push .newline cs
    else if c = '\\' && cs.head? = some '\n' then symbols fuel last (cs.drop 1)
    else if c = '#' then symbols fuel last (cs.dropWhile (· != '\n'))
    else if c = '"' then do
      let (text, rest) ← stringText (cs.length + 1) cs
      push (.string (String.ofList text)) rest
    else if c = '/' && !divides last then do
      let (text, rest) ← regexText false cs
      push (.regex (String.ofList text)) rest
    else if c.isDigit || (c = '.' && cs.head?.any Char.isDigit) then
      match Decimal.leading? (c :: cs) with
      | some (_, rest) =>
        let text := (c :: cs).take (cs.length + 1 - rest.length)
        push (.number (String.ofList text)) rest
      | none => none
    else if isNameStart c then
      let name := String.ofList ((c :: cs).takeWhile isNameChar)
      let rest := (c :: cs).drop name.length
      if keywords.contains name then push (.keyword name) rest
      else if builtins.contains name then push (.builtin name) rest
      else if rest.head? = some '(' then push (.function name) rest
      else push (.name name) rest
    else do
      let (op, rest) ← operators.findSome? fun op =>
        (Text.afterLead? op.toList (c :: cs)).map fun rest => (op, rest)
      push (.op op) rest

end MarkerDoc.Shell.Awk
