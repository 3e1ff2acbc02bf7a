import MarkerDoc.Token

/-!
# Lexemes

A lexeme is what stands at the head of a text when neither the position in the line nor the
tokens before it are taken into account.  Every lexeme is given by the number of characters that it
takes after the first one, so it always has at least one character and never reaches past the text.

Most rules are patterns, and a lexeme is the longest piece that one of them matches: a run of blanks
(taken here one by one), a line break, the three kinds of comments, words with a meaning of their
own, names that may be qualified, the three kinds of variables, numbers, quoted texts with their
closing quote, braces, semicolons, and any other single character that is no white space.

Three rules are not patterns.  They say what is done where no pattern matches, or where the longest
match is not taken, and are known from the behaviour alone:

* A quote that is never closed is punctuation as far as its units reach, and not one character
  (`quotedTail`).
* A word with a meaning of its own that runs into a single colon is an ordinary word (`ofWord`).
* White space that is neither a blank nor a line break is punctuation (`scan`).
-/

namespace MarkerDoc

/-- What a lexeme is before its context is considered. -/
inductive Lexeme where
  | blank
  | newline
  | endMarker
  | token (kind : Token.Kind)
deriving DecidableEq

namespace Lexeme

/-- An ASCII letter or an underscore. -/
def isWordStart (c : Char) : Bool :=
  c.isAlpha || c == '_'

/-- An ASCII letter, an ASCII digit or an underscore. -/
def isWordChar (c : Char) : Bool :=
  c.isAlphanum || c == '_'

def isDigitOrUnderscore (c : Char) : Bool :=
  c.isDigit || c == '_'

/-- Blanks between tokens. -/
def isSpacing (c : Char) : Bool :=
  c == ' ' || c == '\t' || c == '\r' || c == Char.ofNat 0x0C

/-- The length of what continues a bare word: word characters, and `::` between identifiers or at
the very end. -/
def bareWordTail : List Char → Nat
  | [] => 0
  | [c] => if isWordChar c then 1 else 0
  | [c, d] => if isWordChar c then bareWordTail [d] + 1 else if c = ':' ∧ d = ':' then 2 else 0
  | c :: d :: e :: rest =>
    if isWordChar c then bareWordTail (d :: e :: rest) + 1
    else if c = ':' ∧ d = ':' then
      if isWordStart e then bareWordTail rest + 3 else 2
    else 0

/-- The length of what continues a variable name: word characters, and `::` wherever a word
character follows it. -/
def variableTail : List Char → Nat
  | [] => 0
  | [c] => if isWordChar c then 1 else 0
  | [c, d] => if isWordChar c then variableTail [d] + 1 else 0
  | c :: d :: e :: rest =>
    if isWordChar c then variableTail (d :: e :: rest) + 1
    else if c = ':' ∧ d = ':' ∧ isWordChar e then variableTail rest + 3
    else 0

/-- The length of what continues a number: digits and underscores, and one fraction. -/
def numberTail (cs : List Char) : Nat :=
  let whole := (cs.takeWhile isDigitOrUnderscore).length
  match cs.drop whole with
  | '.' :: d :: rest =>
    if d.isDigit then whole + 2 + (rest.takeWhile isDigitOrUnderscore).length else whole
  | _ => whole

/-- Reads a quoted text after its opening quote, unit by unit, where a backslash and the character
after it are one unit.  The answer says whether the closing quote was met, and how long the units
read are, the closing quote included.  No pattern matches a text whose closing quote is not met;
that the units are read nevertheless is observed. -/
def quotedTail (quote : Char) : List Char → Bool × Nat
  | [] => (false, 0)
  | [c] => if c = '\\' then (false, 0) else if c = quote then (true, 1) else (false, 1)
  | c :: d :: rest =>
    if c = '\\' then
      let (closed, n) := quotedTail quote rest
      (closed, n + 2)
    else if c = quote then (true, 1)
    else
      let (closed, n) := quotedTail quote (d :: rest)
      (closed, n + 1)

/-- The characters that name a variable of one character after a dollar sign. -/
def specialVariables : List Char :=
  "0123456789!@/;,.&`'\"+<>[]()|?$-#".toList

/-- The kind of a whole word.  By the patterns it is that of the word alone; that a word with a
meaning of its own is an ordinary word where it runs into a single colon is observed. -/
def ofWord (word : String) (after : List Char) : Lexeme :=
  if after.head? = some ':' then .token .bareWord
  else match word with
    | "package" => .token .package
    | "sub" => .token .sub
    | "use" => .token .use
    | "__END__" | "__DATA__" => .endMarker
    | _ => .token .bareWord

/-- The kind of a comment, given what follows its first number sign. -/
def ofComment : List Char → Token.Kind
  | '#' :: '!' :: _ => .packageDoc
  | '#' :: '#' :: _ => .itemDoc
  | _ => .comment

/-- The lexeme that begins with a sigil. -/
def ofSigil (sigil : Char) : List Char → Lexeme × Nat
  | [] => (.token .punctuation, 0)
  | c :: cs =>
    if isWordStart c then (.token .variableName, 1 + variableTail cs)
    else if sigil = '$' ∧ c ∈ specialVariables then (.token .variableName, 1)
    else (.token .punctuation, 0)

/-- The lexeme at the head of a text that begins with `c`, and the number of characters that it
takes after `c`. -/
def scan (c : Char) (rest : List Char) : Lexeme × Nat :=
  if isSpacing c then (.blank, 0)
  else if c = '\n' then (.newline, 0)
  else if c = '#' then (.token (ofComment rest), (rest.takeWhile (· != '\n')).length)
  else if isWordStart c then
    let n := bareWordTail rest
    (ofWord (String.ofList (c :: rest.take n)) (rest.drop n), n)
  else if c.isDigit then (.token .number, numberTail rest)
  else if c = '$' ∨ c = '@' ∨ c = '%' ∨ c = '&' then ofSigil c rest
  else if c = '"' ∨ c = Char.ofNat 0x27 ∨ c = Char.ofNat 0x60 then
    let (closed, n) := quotedTail c rest
    (.token (if closed then .string else .punctuation), n)
  else if c = Char.ofNat 0x7B then (.token .leftBrace, 0)
  else if c = Char.ofNat 0x7D then (.token .rightBrace, 0)
  else if c = ';' then (.token .semicolon, 0)
  else (.token .punctuation, 0)

end Lexeme

end MarkerDoc
