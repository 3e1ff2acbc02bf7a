import MarkerDoc.Element
import MarkerDoc.Token.Lexer

/-!
# Grouping tokens into elements

The scanner takes the tokens of one element at a time off the front of the list.  All lengths are
numbers of tokens.  A declaration or statement is measured twice: by the tokens that its text
shows, and by the tokens that it uses up, a body and a closing semicolon included.

Nothing can go wrong: what is not recognised becomes an element of kind `other`, and a brace that
is never closed reaches to the end of the tokens.
-/

namespace MarkerDoc

namespace Scan

/-- The word that opens an attribute declaration. -/
def attributeKeyword : String := "has"

/-- The words that open a method modifier. -/
def modifierKeywords : List String :=
  ["before", "after", "around", "override", "augment"]

/-- The words whose statement ends with its first block and not with a semicolon. -/
def blockKeywords : List String :=
  ["if", "unless", "while", "until", "for", "foreach", "else", "elsif", "BEGIN", "END", "INIT",
    "CHECK", "UNITCHECK"]

/-- The text of some tokens, comments left out, with one space wherever the source has a gap.  The
first argument is the offset at which the last token shown ended. -/
def joinedFrom : Option Nat → List Token → String
  | _, [] => ""
  | last, t :: ts =>
    if t.kind.isComment then joinedFrom last ts
    else
      let gap := match last with
        | some stop => if stop < t.start then " " else ""
        | none => ""
      gap ++ t.text ++ joinedFrom (some t.stop) ts

/-- The text of some tokens, comments left out, with one space wherever the source has a gap. -/
def joined (ts : List Token) : String :=
  joinedFrom none ts

/-- The element that the first `n` tokens of a nonempty list make up; at least one is taken, and
no more than there are. -/
def element (source : String) (kind : Element.Kind) (text : String) (first : Token)
    (rest : List Token) (n : Nat) : Element :=
  { kind
    text
    span := first.span.merge (((rest.take (n - 1)).getLast?).getD first).span
    line := lineAt source first.start }

/-- The tokens of a package declaration after the keyword: up to a semicolon, a brace or a
comment. -/
def packageLength : List Token → Nat
  | [] => 0
  | t :: ts =>
    match t.kind with
    | .semicolon | .leftBrace | .rightBrace => 0
    | k => if k.isComment then 0 else packageLength ts + 1

/-- The tokens of a routine's signature after its name, with `parens` parentheses open.  Braces
inside the parentheses are default values.  A closing parenthesis may be the end of a variable's
name, as in the prototype `($)`. -/
def signatureLength : Nat → List Token → Nat
  | _, [] => 0
  | parens, t :: ts =>
    match t.kind with
    | .semicolon => 0
    | .leftBrace | .rightBrace => if parens = 0 then 0 else signatureLength parens ts + 1
    | .punctuation | .variableName =>
      match t.text.toList.getLast? with
      | some '(' => signatureLength (parens + 1) ts + 1
      | some ')' => signatureLength (parens - 1) ts + 1
      | _ => signatureLength parens ts + 1
    | _ => signatureLength parens ts + 1

/-- The tokens through the brace that brings the depth back to zero, with `depth` braces open. -/
def blockLengthFrom : Nat → List Token → Option Nat
  | _, [] => none
  | depth, t :: ts =>
    match t.kind with
    | .leftBrace => (blockLengthFrom (depth + 1) ts).map (· + 1)
    | .rightBrace =>
      if depth - 1 = 0 then some 1 else (blockLengthFrom (depth - 1) ts).map (· + 1)
    | _ => (blockLengthFrom depth ts).map (· + 1)

/-- The tokens of the block at the head of the list, through the brace that closes it. -/
def blockLength (ts : List Token) : Option Nat :=
  blockLengthFrom 0 ts

/-- The measures of a statement. -/
structure Extent where
  /-- Tokens that the text shows. -/
  shown : Nat
  /-- Tokens that are used up. -/
  used : Nat
deriving DecidableEq

def Extent.succ (e : Extent) : Extent :=
  ⟨e.shown + 1, e.used + 1⟩

/-- The measures of a statement with `depth` braces open.  It ends at a semicolon outside all
braces, before a brace that closes more than was opened, or, when `blockEnds`, with the brace that
closes its first block. -/
def statementExtent (blockEnds : Bool) : Nat → List Token → Extent
  | _, [] => ⟨0, 0⟩
  | depth, t :: ts =>
    match t.kind, depth with
    | .leftBrace, d => (statementExtent blockEnds (d + 1) ts).succ
    | .rightBrace, 0 => ⟨0, 0⟩
    | .rightBrace, d + 1 =>
      if d = 0 ∧ blockEnds then ⟨1, 1⟩ else (statementExtent blockEnds d ts).succ
    | .semicolon, 0 => ⟨0, 1⟩
    | _, d => (statementExtent blockEnds d ts).succ

/-- The signature of a method modifier: what stands before the anonymous routine, without the
comma or arrow that joins the two. -/
def modifierSignature (ts : List Token) : String :=
  let text := Text.trimEnd (joined (ts.takeWhile (·.kind != .sub)))
  let text := Text.trimEnd ((Text.stripEnd? "=>" text).getD text)
  Text.trimEnd ((Text.stripEnd? "," text).getD text)

/-- The kind of a statement, by its first token and the tokens after it. -/
def statementKind (first : Token) (rest : List Token) : Element.Kind :=
  match first.kind with
  | .use =>
    match rest with
    | t :: _ => if t.kind = .bareWord then .include t.text else .other
    | [] => .other
  | .bareWord =>
    if first.text = attributeKeyword then .attribute
    else if modifierKeywords.contains first.text then .modifier
    else .other
  | _ => .other

/-- Whether a statement that begins with the token ends with its first block. -/
def endsWithBlock (first : Token) : Bool :=
  first.kind == .leftBrace || (first.kind == .bareWord && blockKeywords.contains first.text)

/-- A comment line.  A marker counts only where nothing but white space stands before it. -/
def commentElement (source : String) (marker : Marker) (t : Token) (rest : List Token) : Element :=
  let marker := if opensLine source t.start then marker else .plain
  let text := String.ofList (Text.dropEndWhile (· == '\r') t.text.toList)
  element source (.comment marker) text t rest 1

/-- A package declaration, and the number of tokens used up after its keyword. -/
def packageElement (source : String) (first : Token) (rest : List Token) : Element × Nat :=
  let n := packageLength rest
  let kind := match rest with
    | t :: _ => if t.kind = .bareWord then Element.Kind.package t.text else .other
    | [] => .other
  let closed := match (rest.drop n).head?.map (·.kind) with
    | some .semicolon | some .leftBrace => 1
    | _ => 0
  (element source kind (joined (first :: rest.take n)) first rest (n + 1), n + closed)

/-- A named routine, and the number of tokens used up after its keyword. -/
def routineElement (source : String) (first name : Token) (rest : List Token) : Element × Nat :=
  let n := signatureLength 0 rest
  let after := rest.drop n
  let body := match after.head?.map (·.kind) with
    | some .leftBrace => (blockLength after).getD after.length
    | some .semicolon => 1
    | _ => 0
  let used := 1 + n + body
  (element source (.routine name.text) (joined (first :: name :: rest.take n)) first (name :: rest)
    (used + 1), used)

/-- Any other statement, and the number of tokens used up after its first. -/
def statementElement (source : String) (first : Token) (rest : List Token) : Element × Nat :=
  let extent := statementExtent (endsWithBlock first) 0 (first :: rest)
  let used := max extent.used 1
  let kind := statementKind first rest
  let shown := (first :: rest).take extent.shown
  let text := if kind = .modifier then modifierSignature shown else joined shown
  (element source kind text first rest used, used - 1)

/-- The element at the head of a list of tokens, if it gives one, and the number of tokens used up
after the first. -/
def step (source : String) (first : Token) (rest : List Token) : Option Element × Nat :=
  let present (r : Element × Nat) : Option Element × Nat := (some r.1, r.2)
  match first.kind with
  | .packageDoc => (some (commentElement source .packageDoc first rest), 0)
  | .itemDoc => (some (commentElement source .itemDoc first rest), 0)
  | .comment => (some (commentElement source .plain first rest), 0)
  | .semicolon => (none, 0)
  | .rightBrace => (some (element source .other "\x7d" first rest 1), 0)
  | .package => present (packageElement source first rest)
  | .sub =>
    match rest with
    | name :: rest' =>
      if name.kind = .bareWord then present (routineElement source first name rest')
      else present (statementElement source first rest)
    | [] => present (statementElement source first rest)
  | _ => present (statementElement source first rest)

/-- The elements that a list of tokens of the source makes up. -/
def elements (source : String) : List Token → List Element
  | [] => []
  | t :: ts =>
    let (found, used) := step source t ts
    found.toList ++ elements source (ts.drop used)
termination_by ts => ts.length
decreasing_by simp only [List.length_cons, List.length_drop]; omega

end Scan

/-- The top-level elements of a source text, in order. -/
def Element.scan (source : String) : List Element :=
  Scan.elements source (Token.lex source)

end MarkerDoc
