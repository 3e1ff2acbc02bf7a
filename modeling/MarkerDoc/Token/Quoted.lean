import MarkerDoc.Text.Alphanumeric
import MarkerDoc.Token.Lexeme

/-!
# Quote-like operators

Words such as `q`, `qw`, `m` or `s` and a slash in operand position open a body with a delimiter
of the writer's choice.  Here the extent of such a construct is found; all lengths are numbers of
characters.

A body is read in units: a backslash with the character after it is one unit, any other character
is one.  Brackets nest, so the body of a bracketed form ends at the bracket that balances it, and
any other delimiter ends it at its first occurrence.
-/

namespace MarkerDoc.Quoted

/-- The bracket that closes an opening bracket. -/
def closingBracket? (c : Char) : Option Char :=
  if c = '(' then some ')'
  else if c = '[' then some ']'
  else if c = Char.ofNat 0x7B then some (Char.ofNat 0x7D)
  else if c = '<' then some '>'
  else none

/-- The length of a body through the delimiter that closes it, with `depth` brackets open inside
the body so far. -/
def delimitedFrom (opener closer : Char) : Nat → List Char → Option Nat
  | _, [] => none
  | depth, [c] => if c ≠ '\\' ∧ c = closer ∧ depth = 0 then some 1 else none
  | depth, c :: d :: rest =>
    if c = '\\' then (delimitedFrom opener closer depth rest).map (· + 2)
    else if c = closer then
      match depth with
      | 0 => some 1
      | k + 1 => (delimitedFrom opener closer k (d :: rest)).map (· + 1)
    else if c = opener then (delimitedFrom opener closer (depth + 1) (d :: rest)).map (· + 1)
    else (delimitedFrom opener closer depth (d :: rest)).map (· + 1)

/-- The length of the body opened by `opener`, through its closing delimiter. -/
def delimited (opener : Char) (body : List Char) : Option Nat :=
  delimitedFrom opener ((closingBracket? opener).getD opener) 0 body

/-- Whether a character can open a body after `gap` blanks.  A number sign after a blank starts a
comment instead. -/
def opensBody (gap : Nat) (c : Char) : Bool :=
  !(Text.isAlphanumeric c || c == '_' || Text.isBlank c || ",;=)]>\x7d".toList.contains c ||
    (gap != 0 && c == '#'))

/-- The length of the second body of an operator with two parts, which stands after the first one.
After a bracketed part the second has a delimiter of its own, after any white space; otherwise
both share the delimiter between them. -/
def secondPart (opener : Char) (rest : List Char) : Option Nat :=
  match closingBracket? opener with
  | none => delimited opener rest
  | some _ =>
    let gap := (rest.takeWhile Text.isBlank).length
    match rest.drop gap with
    | [] => none
    | second :: body => (delimited second body).map (gap + 1 + ·)

/-- The length of a quoted construct from the end of its operator, through the modifiers that
follow it; nothing if no delimiter follows or a body is never closed. -/
def extent (twoParts : Bool) (cs : List Char) : Option Nat := do
  let gap := (cs.takeWhile fun c => c == ' ' || c == '\t').length
  let opener ← (cs.drop gap).head?
  if opensBody gap opener then
    let start := gap + 1
    let first ← delimited opener (cs.drop start)
    let second ← if twoParts then secondPart opener (cs.drop (start + first)) else some 0
    let parts := start + first + second
    some (parts + ((cs.drop parts).takeWhile Char.isLower).length)
  else
    none

/-- Words that open a quote-like construct. -/
def operators : List String :=
  ["m", "q", "qq", "qr", "qw", "qx", "s", "tr", "y"]

/-- Operators with a pattern and a replacement. -/
def substitutions : List String :=
  ["s", "tr", "y"]

/-- Words after which a slash opens a match and does not divide. -/
def matchKeywords : List String :=
  ["and", "grep", "if", "map", "not", "or", "return", "split", "unless", "until", "when", "while"]

/-- Whether a slash opens a match, judged by the last token that is not a comment. -/
def slashOpensMatch : Option Token → Bool
  | none => true
  | some t =>
    match t.kind with
    | .semicolon | .leftBrace => true
    | .punctuation => t.text != ")" && t.text != "]"
    | .bareWord => matchKeywords.contains t.text
    | _ => false

/-- The number of characters after a token that belong to the quote-like construct it opens, if it
opens one.  `before` is the character in front of the token, and `previous` the last token that is
not a comment. -/
def continuation? (before : Option Char) (previous : Option Token) (t : Token)
    (after : List Char) : Option Nat :=
  match t.kind with
  | .bareWord =>
    if operators.contains t.text then
      if before = some '-' ∨ before = some '>' ∨ previous.map (·.kind) = some .sub then none
      else extent (substitutions.contains t.text) after
    else none
  | .punctuation =>
    if t.text = "/" ∧ slashOpensMatch previous then do
      let n ← extent false ('/' :: after)
      if '\n' ∈ after.take (n - 1) then none else some (n - 1)
    else none
  | _ => none

end MarkerDoc.Quoted
