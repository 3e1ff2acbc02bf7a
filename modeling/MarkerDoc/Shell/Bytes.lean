import MarkerDoc.Text.Bytes

/-!
# Lines and names of scripts

The command language and the programs that scripts call work on bytes, and so on texts in which
every byte stands as the character with its code.
-/

namespace MarkerDoc.Shell

/-- The lines of a text, without their line breaks. -/
def textLines (text : String) : List String :=
  let rec go (line : List Char) : List Char → List String
    | [] => if line.isEmpty then [] else [String.ofList line.reverse]
    | c :: cs =>
      if c = '\n' then String.ofList line.reverse :: go [] cs else go (c :: line) cs
  go [] text.toList

/-- The lines of a text with their line breaks. -/
def brokenLines (text : String) : List String :=
  let rec go (line : List Char) : List Char → List String
    | [] => if line.isEmpty then [] else [String.ofList line.reverse]
    | c :: cs =>
      if c = '\n' then String.ofList ('\n' :: line).reverse :: go [] cs else go (c :: line) cs
  go [] text.toList

/-- Every line with a line break. -/
def unlines (lines : List String) : String :=
  String.join (lines.map (· ++ "\n"))

/-- A text with a character in front until it has a width. -/
def padLeft (width : Nat) (c : Char) (s : String) : String :=
  String.ofList (List.replicate (width - s.length) c) ++ s

/-- A text with a character behind until it has a width. -/
def padRight (width : Nat) (c : Char) (s : String) : String :=
  s ++ String.ofList (List.replicate (width - s.length) c)

def singleQuote : Char := Char.ofNat 0x27
def backquote : Char := Char.ofNat 0x60
def leftBrace : Char := Char.ofNat 0x7B
def rightBrace : Char := Char.ofNat 0x7D

def isNameStart (c : Char) : Bool := c.isAlpha || c == '_'
def isNameChar (c : Char) : Bool := c.isAlphanum || c == '_'

/-- Whether a text is a name that variables and functions may have. -/
def isName (s : String) : Bool :=
  (s.toList.head?.any isNameStart) && s.toList.all isNameChar

end MarkerDoc.Shell
