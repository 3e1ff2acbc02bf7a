import MarkerDoc.Text.Basic

/-!
# Tokens

A token is a piece of a source text together with the byte offset at which it starts.  Its end is
not stored: it is the start plus the size of the text in bytes, so a span can never disagree with
the text it covers.  Offsets are unbounded numbers here; sources of less than 4 GiB are meant, whose
offsets fit into 32 bits.

Lines are found from offsets alone, by a table of the offsets at which lines start.
-/

namespace MarkerDoc

/-- A half-open range of byte offsets. -/
structure Span where
  start : Nat
  stop : Nat
deriving DecidableEq

/-- The smallest span that covers both. -/
def Span.merge (a b : Span) : Span :=
  ⟨min a.start b.start, max a.stop b.stop⟩

/-- The distinctions that matter for grouping tokens into elements. -/
inductive Token.Kind where
  | packageDoc
  | itemDoc
  | comment
  | package
  | sub
  | use
  | bareWord
  | variableName
  | string
  | number
  | leftBrace
  | rightBrace
  | semicolon
  | punctuation
deriving DecidableEq

/-- A comment of any kind, with or without a documentation marker. -/
def Token.Kind.isComment : Token.Kind → Bool
  | .packageDoc | .itemDoc | .comment => true
  | _ => false

structure Token where
  kind : Token.Kind
  start : Nat
  text : String
deriving DecidableEq

namespace Token

/-- The byte offset just past the token. -/
def stop (t : Token) : Nat :=
  t.start + t.text.utf8ByteSize

def span (t : Token) : Span :=
  ⟨t.start, t.stop⟩

end Token

/-- The characters of a source that start before a byte offset. -/
def charsBefore : Nat → List Char → List Char
  | 0, _ => []
  | _ + 1, [] => []
  | n + 1, c :: cs => c :: charsBefore (n + 1 - c.utf8Size) cs

/-- The byte offsets at which the lines of a source start. -/
structure LineIndex where
  starts : List Nat
deriving DecidableEq

namespace LineIndex

/-- The byte of a line break. -/
def newline : UInt8 := 10

/-- The first line starts with the source, and one starts behind each line break. -/
def ofSource (source : String) : LineIndex where
  starts := 0 :: (source.toUTF8.data.toList.zipIdx.filter (·.1 == newline)).map (·.2 + 1)

/-- The place of the first element without a property. -/
def partitionPoint (p : Nat → Bool) (xs : List Nat) : Nat :=
  (xs.takeWhile p).length

/-- The line, counted from one, of a byte offset, which may lie past the end. -/
def line (index : LineIndex) (offset : Nat) : Nat :=
  partitionPoint (· ≤ offset) index.starts

end LineIndex

/-- The line, counted from one, of a byte offset in a source. -/
def lineAt (source : String) (offset : Nat) : Nat :=
  (LineIndex.ofSource source).line offset

/-- Whether only white space stands before the offset on its line. -/
def opensLine (source : String) (offset : Nat) : Bool :=
  ((charsBefore offset source.toList).reverse.takeWhile (· != '\n')).all Text.isBlank

end MarkerDoc
