import MarkerDoc.Shell.Awk.Program

/-!
# Reading programs for records and fields
-/

namespace MarkerDoc.Shell.Awk

abbrev Reader := StateT (List Symbol) Option

/-- Where an expression stands, which decides about two operators. -/
structure Place where
  /-- A greater-than sign sends output elsewhere. -/
  redirects : Bool := false
  /-- The word `in` belongs to a loop. -/
  inLoop : Bool := false

def peek : Reader (Option Symbol) := do
  return (← get).head?

def drop : Reader Unit :=
  modify List.tail

/-- Takes an operator if it is next. -/
def accept (op : String) : Reader Bool := do
  if (← peek) = some (.op op) then
    drop
    return true
  else return false

def expectOp (op : String) : Reader Unit := do
  if !(← accept op) then failure

def skipNewlines : Reader Unit :=
  modify fun ss => ss.dropWhile (· == .newline)

/-- Drops line breaks and semicolons. -/
def skipEnds : Reader Unit :=
  modify fun ss => ss.dropWhile fun s => s == .newline || s == .op ";"

def nameOf : Reader String := do
  match ← peek with
  | some (.name s) | some (.function s) => drop; return s
  | _ => failure

def isTarget : Expr → Bool
  | .var _ | .field _ | .element .. => true
  | _ => false

def assignmentOperators : List String :=
  ["=", "+=", "-=", "*=", "/=", "%=", "^="]

/-- Whether an operand begins here that is joined to the one before. -/
def beginsOperand : Option Symbol → Bool
  | some (.number _) | some (.string _) | some (.regex _) | some (.name _) | some (.function _)
  | some (.builtin _) => true
  | some (.op s) => ["$", "(", "!", "-", "+", "++", "--"].contains s
  | _ => false

/-- The operator of a comparison that is next. -/
def comparison? (p : Place) : Option Symbol → Option String
  | some (.op s) =>
    if ["<", "<=", "==", "!=", ">="].contains s || (s == ">" && !p.redirects) then some s else none
  | _ => none

mutual

/-- A whole expression. -/
def readExpr : Nat → Place → Reader Expr
  | 0, _ => failure
  | fuel + 1, p => do
    let e ← readOr fuel p
    match ← peek with
    | some (.op "?") =>
      drop
      skipNewlines
      let a ← readExpr fuel p
      skipNewlines
      expectOp ":"
      skipNewlines
      return .choose e a (← readExpr fuel p)
    | some (.op op) =>
      if assignmentOperators.contains op then
        match e with
        | .unary "!" target =>
          if isTarget target then
            drop
            return .unary "!" (.assign target op (← readExpr fuel p))
          else failure
        | e =>
          if isTarget e then
            drop
            skipNewlines
            return .assign e op (← readExpr fuel p)
          else failure
      else return e
    | _ => return e

def readOr : Nat → Place → Reader Expr
  | 0, _ => failure
  | fuel + 1, p => do readMoreOr fuel p (← readAnd fuel p)

def readMoreOr : Nat → Place → Expr → Reader Expr
  | 0, _, _ => failure
  | fuel + 1, p, a => do
    if ← accept "||" then
      skipNewlines
      readMoreOr fuel p (.either a (← readAnd fuel p))
    else return a

def readAnd : Nat → Place → Reader Expr
  | 0, _ => failure
  | fuel + 1, p => do readMoreAnd fuel p (← readMember fuel p)

def readMoreAnd : Nat → Place → Expr → Reader Expr
  | 0, _, _ => failure
  | fuel + 1, p, a => do
    if ← accept "&&" then
      skipNewlines
      readMoreAnd fuel p (.both a (← readMember fuel p))
    else return a

def readMember : Nat → Place → Reader Expr
  | 0, _ => failure
  | fuel + 1, p => do readMoreMember fuel p (← readLike fuel p)

def readMoreMember : Nat → Place → Expr → Reader Expr
  | 0, _, _ => failure
  | fuel + 1, p, a => do
    if (← peek) = some (.keyword "in") && !p.inLoop then
      drop
      let name ← nameOf
      let keys := match a with
        | .list es => es
        | a => [a]
      readMoreMember fuel p (.member keys name)
    else return a

def readLike : Nat → Place → Reader Expr
  | 0, _ => failure
  | fuel + 1, p => do readMoreLike fuel p (← readComparison fuel p)

def readMoreLike : Nat → Place → Expr → Reader Expr
  | 0, _, _ => failure
  | fuel + 1, p, a => do
    if ← accept "~" then readMoreLike fuel p (.like false a (← readComparison fuel p))
    else if ← accept "!~" then readMoreLike fuel p (.like true a (← readComparison fuel p))
    else return a

def readComparison : Nat → Place → Reader Expr
  | 0, _ => failure
  | fuel + 1, p => do
    let a ← readPiped fuel p (← readConcat fuel p)
    match comparison? p (← peek) with
    | some op =>
      drop
      return .compare op a (← readConcat fuel p)
    | none => return a

/-- A command whose output is read. -/
def readPiped : Nat → Place → Expr → Reader Expr
  | 0, _, _ => failure
  | fuel + 1, p, a => do
    match ← get with
    | .op "|" :: .keyword "getline" :: rest =>
      set rest
      let target ← readTarget fuel
      readPiped fuel p (.getline "|" (some a) target)
    | _ => return a

/-- The target of a read, if there is one. -/
def readTarget : Nat → Reader (Option Expr)
  | 0 => failure
  | fuel + 1 => do
    match ← peek with
    | some (.name _) | some (.op "$") => return some (← readPrimary fuel)
    | _ => return none

def readConcat : Nat → Place → Reader Expr
  | 0, _ => failure
  | fuel + 1, p => do readMoreConcat fuel p (← readSum fuel p)

def readMoreConcat : Nat → Place → Expr → Reader Expr
  | 0, _, _ => failure
  | fuel + 1, p, a => do
    let next ← peek
    if beginsOperand next then readMoreConcat fuel p (.concat a (← readSum fuel p))
    else return a

def readSum : Nat → Place → Reader Expr
  | 0, _ => failure
  | fuel + 1, p => do readMoreSum fuel p (← readProduct fuel p)

def readMoreSum : Nat → Place → Expr → Reader Expr
  | 0, _, _ => failure
  | fuel + 1, p, a => do
    if ← accept "+" then readMoreSum fuel p (.binary "+" a (← readProduct fuel p))
    else if ← accept "-" then readMoreSum fuel p (.binary "-" a (← readProduct fuel p))
    else return a

def readProduct : Nat → Place → Reader Expr
  | 0, _ => failure
  | fuel + 1, p => do readMoreProduct fuel p (← readSigned fuel p)

def readMoreProduct : Nat → Place → Expr → Reader Expr
  | 0, _, _ => failure
  | fuel + 1, p, a => do
    if ← accept "*" then readMoreProduct fuel p (.binary "*" a (← readSigned fuel p))
    else if ← accept "/" then readMoreProduct fuel p (.binary "/" a (← readSigned fuel p))
    else if ← accept "%" then readMoreProduct fuel p (.binary "%" a (← readSigned fuel p))
    else return a

def readSigned : Nat → Place → Reader Expr
  | 0, _ => failure
  | fuel + 1, p => do
    if ← accept "!" then return .unary "!" (← readSigned fuel p)
    else if ← accept "-" then return .unary "-" (← readSigned fuel p)
    else if ← accept "+" then return .unary "+" (← readSigned fuel p)
    else readPower fuel p

def readPower : Nat → Place → Reader Expr
  | 0, _ => failure
  | fuel + 1, p => do
    let a ← readCounted fuel
    if ← accept "^" then return .binary "^" a (← readSigned fuel p)
    else return a

/-- An operand that may be counted afterwards. -/
def readCounted : Nat → Reader Expr
  | 0 => failure
  | fuel + 1 => do
    let a ← readPrimary fuel
    if isTarget a then
      if ← accept "++" then return .count true 1 a
      else if ← accept "--" then return .count true (-1) a
      else return a
    else return a

def readPrimary : Nat → Reader Expr
  | 0 => failure
  | fuel + 1 => do
    match ← peek with
    | some (.number text) => drop; return .number text
    | some (.string s) => drop; return .string s
    | some (.regex s) => drop; return .regex s
    | some (.op "$") =>
      drop
      if ← accept "++" then return .field (.count false 1 (← readPrimary fuel))
      else if ← accept "--" then return .field (.count false (-1) (← readPrimary fuel))
      else if ← accept "-" then return .field (.unary "-" (← readPrimary fuel))
      else return .field (← readPrimary fuel)
    | some (.op "++") => drop; return .count false 1 (← readPrimary fuel)
    | some (.op "--") => drop; return .count false (-1) (← readPrimary fuel)
    | some (.op "-") => drop; return .unary "-" (← readPrimary fuel)
    | some (.op "(") =>
      drop
      skipNewlines
      let es ← readList fuel ")"
      match es with
      | [e] => return .list [e]
      | [] => failure
      | es => return .list es
    | some (.name s) =>
      drop
      if ← accept "[" then return .element s (← readList fuel "]")
      else return .var s
    | some (.function s) =>
      drop
      drop
      return .call s (← readList fuel ")")
    | some (.builtin s) =>
      drop
      if ← accept "(" then return .builtin s (← readList fuel ")")
      else return .builtin s []
    | some (.keyword "getline") =>
      drop
      let target ← readTarget fuel
      if ← accept "<" then
        return .getline "<" (some (← readPrimary fuel)) target
      else return .getline "" none target
    | _ => failure

/-- Expressions with commas between them up to a closing operator. -/
def readList : Nat → String → Reader (List Expr)
  | 0, _ => failure
  | fuel + 1, closer => do
    skipNewlines
    if ← accept closer then return []
    else
      let e ← readExpr fuel {}
      skipNewlines
      if ← accept "," then
        skipNewlines
        return e :: (← readList fuel closer)
      else
        expectOp closer
        return [e]

end

/-- Expressions with commas between them. -/
def readArgs (p : Place) (bound : Nat) : Nat → Reader (List Expr)
  | 0 => failure
  | fuel + 1 => do
    let e ← readExpr bound p
    if ← accept "," then
      skipNewlines
      return e :: (← readArgs p bound fuel)
    else return [e]

/-- Whether a statement ends here. -/
def endsStatement : Option Symbol → Bool
  | none | some .newline => true
  | some (.op s) => s == ";" || s == "\x7d"
  | _ => false

/-- The end of a statement. -/
def readEnd : Reader Unit := do
  match ← peek with
  | none => pure ()
  | some .newline => skipNewlines
  | some (.op ";") => drop; skipNewlines
  | some (.op "\x7d") => pure ()
  | _ => failure

/-- The arguments of a print, which may stand in parentheses. -/
def printed : List Expr → List Expr
  | [.list es] => es
  | es => es

/-- A statement that is not made of others, without its end. -/
def readSimple (bound : Nat) : Reader Stmt := do
  match ← peek with
  | some (.keyword "print") | some (.keyword "printf") =>
    let formatted := (← peek) == some (.keyword "printf")
    drop
    let next ← peek
    let stops := endsStatement next || next == some (.op ">") || next == some (.op ">>") ||
      next == some (.op "|")
    let args ← if stops then pure [] else readArgs { redirects := true } bound bound
    let args := printed args
    match ← peek with
    | some (.op op) =>
      if op = ">" || op = ">>" || op = "|" then
        drop
        return .print formatted args op (some (← readConcat bound { redirects := true }))
      else return .print formatted args "" none
    | _ => return .print formatted args "" none
  | some (.keyword "next") | some (.keyword "nextfile") => drop; return .next
  | some (.keyword "break") => drop; return .leave
  | some (.keyword "continue") => drop; return .again
  | some (.keyword "exit") =>
    drop
    if endsStatement (← peek) then return .exit none else return .exit (some (← readExpr bound {}))
  | some (.keyword "return") =>
    drop
    if endsStatement (← peek) then return .result none
    else return .result (some (← readExpr bound {}))
  | some (.keyword "delete") =>
    drop
    let name ← nameOf
    if ← accept "[" then return .delete name (some (← readList bound "]"))
    else return .delete name none
  | _ => return .expr (← readExpr bound {})

mutual

def readStmt (bound : Nat) : Nat → Reader Stmt
  | 0 => failure
  | fuel + 1 => do
    match ← peek with
    | some (.op "\x7b") => drop; return .block (← readStmts bound fuel)
    | some (.op ";") => drop; skipNewlines; return .block []
    | some (.keyword "if") =>
      drop
      expectOp "("
      let condition ← readExpr bound {}
      expectOp ")"
      skipNewlines
      let a ← readStmt bound fuel
      let before ← get
      skipEnds
      if (← peek) = some (.keyword "else") then
        drop
        skipNewlines
        return .choose condition a (← readStmt bound fuel)
      else
        set before
        return .choose condition a (.block [])
    | some (.keyword "while") =>
      drop
      expectOp "("
      let condition ← readExpr bound {}
      expectOp ")"
      if (← peek) = some (.op ";") then
        drop
        return .loop condition (.block [])
      else
        skipNewlines
        return .loop condition (← readStmt bound fuel)
    | some (.keyword "do") =>
      drop
      skipNewlines
      let body ← readStmt bound fuel
      skipEnds
      if (← peek) != some (.keyword "while") then failure
      else
        drop
        expectOp "("
        let condition ← readExpr bound {}
        expectOp ")"
        readEnd
        return .loopAfter body condition
    | some (.keyword "for") =>
      drop
      expectOp "("
      match ← get with
      | .name x :: .keyword "in" :: .name a :: .op ")" :: rest =>
        set rest
        skipNewlines
        return .each x a (← readStmt bound fuel)
      | _ =>
        let start ← if (← peek) = some (.op ";") then pure (Stmt.block [])
          else readSimple bound
        expectOp ";"
        skipNewlines
        let condition ← if (← peek) = some (.op ";") then pure none
          else do pure (some (← readExpr bound {}))
        expectOp ";"
        skipNewlines
        let step ← if (← peek) = some (.op ")") then pure (Stmt.block [])
          else readSimple bound
        expectOp ")"
        if (← peek) = some (.op ";") then
          drop
          return .count start condition step (.block [])
        else
          skipNewlines
          return .count start condition step (← readStmt bound fuel)
    | _ =>
      let s ← readSimple bound
      readEnd
      return s

/-- Statements up to a closing brace. -/
def readStmts (bound : Nat) : Nat → Reader (List Stmt)
  | 0 => failure
  | fuel + 1 => do
    skipEnds
    if ← accept "\x7d" then return []
    else
      let s ← readStmt bound fuel
      return s :: (← readStmts bound fuel)

end

/-- The names of the parameters of a function. -/
def readParams : Nat → Reader (List String)
  | 0 => failure
  | fuel + 1 => do
    skipNewlines
    if ← accept ")" then return []
    else
      let name ← nameOf
      skipNewlines
      if ← accept "," then return name :: (← readParams fuel)
      else
        expectOp ")"
        return [name]

/-- A block of statements. -/
def readBlock (bound : Nat) : Reader Stmt := do
  expectOp "\x7b"
  return .block (← readStmts bound bound)

def readPattern (bound : Nat) : Reader Pattern := do
  match ← peek with
  | some (.keyword "BEGIN") => drop; return .first
  | some (.keyword "END") => drop; return .last
  | some (.op "\x7b") => return .always
  | _ =>
    let a ← readExpr bound {}
    if ← accept "," then
      skipNewlines
      return .range a (← readExpr bound {})
    else return .holds a

/-- The rules and functions of a program. -/
def readProgram (bound : Nat) : Nat → Program → Reader Program
  | 0, _ => failure
  | fuel + 1, done => do
    skipEnds
    match ← peek with
    | none => return done
    | some (.keyword "function") | some (.keyword "func") =>
      drop
      let name ← nameOf
      expectOp "("
      let params ← readParams bound
      skipNewlines
      let body ← readBlock bound
      readProgram bound fuel { done with functions := done.functions ++ [⟨name, params, body⟩] }
    | _ =>
      let pattern ← readPattern bound
      let action ← if (← peek) = some (.op "\x7b") then do pure (some (← readBlock bound))
        else pure none
      readProgram bound fuel { done with rules := done.rules ++ [⟨pattern, action⟩] }

def read? (text : String) : Option Program := do
  let ss ← symbols (text.length + 1) none text.toList
  let bound := 40 * ss.length + 40
  let (program, _) ← (readProgram bound bound {}).run ss
  some program

end MarkerDoc.Shell.Awk
