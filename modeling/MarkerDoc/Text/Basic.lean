/-!
# Text

The operations on text that the rest of the library is written in.  They work on the list of
characters, so that each is a short recursion with equations of its own.

Blank characters are those that Unicode calls white space.  Searching is always for whole pieces
of text from left to right, and matches never overlap.
-/

namespace MarkerDoc.Text

/-- White space in the sense of Unicode. -/
def isBlank (c : Char) : Bool :=
  let n := c.toNat
  (9 ≤ n && n ≤ 13) || n == 0x20 || n == 0x85 || n == 0xA0 || n == 0x1680 ||
    (0x2000 ≤ n && n ≤ 0x200A) || n == 0x2028 || n == 0x2029 || n == 0x202F || n == 0x205F ||
    n == 0x3000

/-- Drops the longest run of characters with the property from the end. -/
def dropEndWhile {α : Type} (p : α → Bool) (cs : List α) : List α :=
  (cs.reverse.dropWhile p).reverse

def trimStart (s : String) : String :=
  String.ofList (s.toList.dropWhile isBlank)

def trimEnd (s : String) : String :=
  String.ofList (dropEndWhile isBlank s.toList)

def trim (s : String) : String :=
  trimStart (trimEnd s)

/-- Nothing but white space, or nothing at all. -/
def isBlankText (s : String) : Bool :=
  s.toList.all isBlank

/-- What follows `lead` in a list that begins with it. -/
def afterLead? {α : Type} [DecidableEq α] : List α → List α → Option (List α)
  | [], cs => some cs
  | _ :: _, [] => none
  | l :: ls, c :: cs => if l = c then afterLead? ls cs else none

def startsWith (lead s : String) : Bool :=
  (afterLead? lead.toList s.toList).isSome

/-- The rest of a text that begins with `lead`. -/
def stripStart? (lead s : String) : Option String :=
  (afterLead? lead.toList s.toList).map String.ofList

/-- The front of a text that ends in `tail`. -/
def stripEnd? (tail s : String) : Option String :=
  (afterLead? tail.toList.reverse s.toList.reverse).map fun cs => String.ofList cs.reverse

/-- Whether `piece` occurs in the list as a run of neighbours. -/
def occursIn (piece : List Char) : List Char → Bool
  | [] => piece.isEmpty
  | c :: cs => (afterLead? piece (c :: cs)).isSome || occursIn piece cs

def contains (piece s : String) : Bool :=
  occursIn piece.toList s.toList

/-- Writes `new` for every occurrence of `old`.  The count is the number of characters that still
belong to the occurrence just replaced. -/
def replaceFrom (old new : List Char) : Nat → List Char → List Char
  | _, [] => []
  | n + 1, _ :: cs => replaceFrom old new n cs
  | 0, c :: cs =>
    if (afterLead? old (c :: cs)).isSome then
      new ++ replaceFrom old new (old.length - 1) cs
    else
      c :: replaceFrom old new 0 cs

/-- Writes `new` for every occurrence of `old`, which is not empty. -/
def replace (old new s : String) : String :=
  String.ofList (replaceFrom old.toList new.toList 0 s.toList)

/-- The pieces between the occurrences of a separator, with the piece under way and the number of
characters that still belong to the separator just met. -/
def splitFrom (separator : List Char) : Nat → List Char → List Char → List (List Char)
  | _, piece, [] => [piece.reverse]
  | n + 1, piece, _ :: cs => splitFrom separator n piece cs
  | 0, piece, c :: cs =>
    if (afterLead? separator (c :: cs)).isSome then
      piece.reverse :: splitFrom separator (separator.length - 1) [] cs
    else
      splitFrom separator 0 (c :: piece) cs

/-- The pieces of a text between the occurrences of a separator, which is not empty. -/
def splitOn (separator s : String) : List String :=
  (splitFrom separator.toList 0 [] s.toList).map String.ofList

/-- What follows the last occurrence of a separator, or `best` if there is none. -/
def afterLastFrom (separator best : List Char) : List Char → List Char
  | [] => best
  | c :: cs => afterLastFrom separator ((afterLead? separator (c :: cs)).getD best) cs

/-- What follows the last occurrence of a separator, or the whole text if there is none. -/
def afterLast (separator s : String) : String :=
  String.ofList (afterLastFrom separator.toList s.toList s.toList)

/-- The maximal runs of characters that are not blank, with the run under way. -/
def wordsFrom : List Char → List Char → List (List Char)
  | word, [] => if word.isEmpty then [] else [word.reverse]
  | word, c :: cs =>
    if isBlank c then
      if word.isEmpty then wordsFrom [] cs else word.reverse :: wordsFrom [] cs
    else
      wordsFrom (c :: word) cs

/-- The words of a text: its maximal runs without white space. -/
def words (s : String) : List String :=
  (wordsFrom [] s.toList).map String.ofList

/-- One text out of many, with `separator` between neighbours. -/
def joinWith (separator : String) : List String → String
  | [] => ""
  | [s] => s
  | s :: t :: rest => s ++ separator ++ joinWith separator (t :: rest)

end MarkerDoc.Text
