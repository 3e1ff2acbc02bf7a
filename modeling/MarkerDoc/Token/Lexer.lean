import MarkerDoc.Token.Quoted

/-!
# Reading tokens

The lexer walks over the text once and never fails.  Besides the text still to be read it carries
the byte offset reached, the character just passed and the last token that is not a comment; a
position is at the start of a line exactly when nothing or a line break has just been passed.

At the start of a line, an embedded documentation block is skipped and an end marker ends the
tokens.  Each round takes at least one character, which is why the walk ends.
-/

namespace MarkerDoc

/-- The size in bytes of a run of characters. -/
def byteSize (cs : List Char) : Nat :=
  cs.foldr (fun c size => c.utf8Size + size) 0

namespace Pod

/-- A documentation command at the head of a line: an equals sign and a letter. -/
def opens : List Char → Bool
  | '=' :: c :: _ => c.isAlpha
  | _ => false

/-- Whether a line ends the block: `=cut`, and then white space or nothing. -/
def isCut (line : List Char) : Bool :=
  match Text.afterLead? "=cut".toList line with
  | none => false
  | some [] => true
  | some (c :: _) => Text.isBlank c

/-- The number of characters to the end of the first closing line, its line break included, or to
the end of the text.  The argument before the text holds the line under way, last character
first. -/
def lengthFrom : List Char → List Char → Nat
  | _, [] => 0
  | line, c :: cs =>
    if c = '\n' then
      if isCut (c :: line).reverse then 1 else lengthFrom [] cs + 1
    else lengthFrom (c :: line) cs + 1

/-- The length of the documentation block at the head of the text. -/
def length (cs : List Char) : Nat :=
  lengthFrom [] cs

end Pod

namespace Token

/-- A position at the start of a line, told by the character in front of it. -/
def atLineStart (before : Option Char) : Bool :=
  before == none || before == some '\n'

/-- The character in front of the position after a run has been passed. -/
def lastOr (before : Option Char) (run : List Char) : Option Char :=
  run.getLast?.or before

/-- The tokens of the text from a position on. -/
def lexFrom (offset : Nat) (before : Option Char) (previous : Option Token) :
    List Char → List Token
  | [] => []
  | c :: rest =>
    if atLineStart before && Pod.opens (c :: rest) then
      let n := Pod.length (c :: rest)
      let block := (c :: rest).take n
      lexFrom (offset + byteSize block) (lastOr before block) previous (rest.drop (n - 1))
    else
      match Lexeme.scan c rest with
      | (.blank, _) => lexFrom (offset + c.utf8Size) (some c) previous rest
      | (.newline, _) => lexFrom (offset + c.utf8Size) (some c) previous rest
      | (.endMarker, n) =>
        if atLineStart before then []
        else
          let run := c :: rest.take n
          ⟨.bareWord, offset, String.ofList run⟩ ::
            lexFrom (offset + byteSize run) (lastOr before run) previous (rest.drop n)
      | (.token kind, n) =>
        let base : Token := ⟨kind, offset, String.ofList (c :: rest.take n)⟩
        match Quoted.continuation? before previous base (rest.drop n) with
        | some m =>
          let run := c :: rest.take (n + m)
          let t : Token := ⟨.string, offset, String.ofList run⟩
          t :: lexFrom (offset + byteSize run) (lastOr before run) (some t) (rest.drop (n + m))
        | none =>
          let run := c :: rest.take n
          base :: lexFrom (offset + byteSize run) (lastOr before run)
            (if kind.isComment then previous else some base) (rest.drop n)
termination_by cs => cs.length
decreasing_by all_goals (simp only [List.length_cons, List.length_drop]; omega)

/-- The tokens of a source text, in order. -/
def lex (source : String) : List Token :=
  lexFrom 0 none none source.toList

end Token

end MarkerDoc
