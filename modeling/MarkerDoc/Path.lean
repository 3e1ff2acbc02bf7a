import MarkerDoc.Text.Basic
import MarkerDoc.Text.Bytes

/-!
# Paths

A path is kept exactly as it was written, byte for byte.  What it means is its list of components:
repeated and trailing slashes and inner `.` pieces say nothing, a leading `.` and every `..` are
components of their own, and nothing is ever resolved.

The pieces between slashes determine the text, so operations that change a path work on pieces: an
optional lead, which is empty for an absolute path and `.` for one that starts with it, and the
body after it.
-/

namespace MarkerDoc

structure Path where
  /-- The bytes of the path. -/
  text : String
deriving DecidableEq

namespace Path

/-- The path that a text spells. -/
def ofText (s : String) : Path :=
  ⟨Bytes.ofText s⟩

/-- The text that a path spells; nothing if it is not UTF-8. -/
def toText? (p : Path) : Option String :=
  Bytes.toText? p.text

/-- A path in print, with replacement characters where it spells none. -/
def display (p : Path) : String :=
  Bytes.toText p.text

/-- One step of a path. -/
inductive Component where
  | root
  | here
  | up
  | name (name : String)
deriving DecidableEq

/-- The text of a component. -/
def Component.text : Component → String
  | .root => "/"
  | .here => "."
  | .up => ".."
  | .name n => n

/-- The name that a component is, if it is one. -/
def Component.name? : Component → Option String
  | .name n => some n
  | _ => none

/-- The order of the kinds of components. -/
def Component.rank : Component → Nat
  | .root => 0
  | .here => 1
  | .up => 2
  | .name _ => 3

/-- Components are ordered by kind, and names by their text. -/
def Component.lt : Component → Component → Bool
  | .name a, .name b => decide (a < b)
  | a, b => decide (a.rank < b.rank)

/-- A path divided at its slashes. -/
structure Pieces where
  /-- Empty for an absolute path, `.` for a path that starts with it. -/
  lead : Option String
  body : List String
deriving DecidableEq

/-- Divides the pieces between slashes into lead and body. -/
def Pieces.ofList : List String → Pieces
  | "" :: s :: rest => ⟨some "", s :: rest⟩
  | "." :: rest => ⟨some ".", rest⟩
  | pieces => ⟨none, pieces⟩

def pieces (p : Path) : Pieces :=
  Pieces.ofList (Text.splitOn "/" p.text)

/-- Whether a piece of the body says nothing. -/
def isIdle (piece : String) : Bool :=
  piece == "" || piece == "."

/-- The component that a piece of the body stands for. -/
def component? (piece : String) : Option Component :=
  if isIdle piece then none
  else if piece = ".." then some .up
  else some (.name piece)

def leadComponents : Option String → List Component
  | none => []
  | some "" => [.root]
  | some _ => [.here]

def components (p : Path) : List Component :=
  leadComponents p.pieces.lead ++ p.pieces.body.filterMap component?

/-- The text that pieces make up. -/
def Pieces.toPath (ps : Pieces) : Path :=
  match ps.lead, ps.body with
  | some "", [] => ⟨"/"⟩
  | lead, body => ⟨Text.joinWith "/" (lead.toList ++ body)⟩

/-- The pieces without what says nothing at the end. -/
def Pieces.settle (ps : Pieces) : Pieces :=
  { ps with body := Text.dropEndWhile isIdle ps.body }

def isAbsolute (p : Path) : Bool :=
  p.text.toList.head? == some '/'

def isEmpty (p : Path) : Bool :=
  p.text.isEmpty

/-- The last component, if it is a name. -/
def fileName? (p : Path) : Option String :=
  p.components.getLast?.bind Component.name?

/-- The path without its last component; nothing for the empty path and for the root. -/
def parent? (p : Path) : Option Path :=
  let ps := p.pieces.settle
  if ps.body.isEmpty then
    if ps.lead = some "." then some ⟨""⟩ else none
  else
    some ({ ps with body := ps.body.dropLast } : Pieces).settle.toPath

/-- A file name divided at its last dot into stem and extension.  A dot at the very start does not
count, and neither does any in the name `..`. -/
def splitName (name : String) : String × Option String :=
  if name = ".." then (name, none)
  else
    let after := (name.toList.reverse.takeWhile (· != '.')).reverse
    let before := name.toList.take (name.toList.length - after.length - 1)
    if before.isEmpty then (name, none)
    else (String.ofList before, some (String.ofList after))

def extension? (p : Path) : Option String :=
  p.fileName?.bind fun name => (splitName name).2

/-- Gives the file name another extension, or none if it is empty.  A path without a file name is
left as it is. -/
def withExtension (p : Path) (extension : String) : Path :=
  match p.fileName? with
  | none => p
  | some name =>
    let ps := p.pieces.settle
    let stem := (splitName name).1
    let last := if extension = "" then stem else stem ++ "." ++ extension
    ({ ps with body := ps.body.dropLast ++ [last] } : Pieces).toPath

/-- The second path taken from the first: an absolute path stands for itself. -/
def join (p q : Path) : Path :=
  if q.isAbsolute then q
  else if p.isEmpty || p.text.toList.getLast? == some '/' then ⟨p.text ++ q.text⟩
  else ⟨p.text ++ "/" ++ q.text⟩

/-- The path that leads through some names one after the other. -/
def ofSegments (segments : List String) : Path :=
  segments.foldl (fun p s => p.join ⟨s⟩) ⟨""⟩

/-- Steps with the extension taken off the last one.  A stem that is no name of its own, such as the
dot in front of `..md`, goes as well. -/
def stemSteps (steps : List Component) : List Component :=
  match steps.getLast?.bind Component.name? with
  | some name => steps.dropLast ++ (component? (splitName name).1).toList
  | none => steps

/-- The components behind `base`, if the path begins with it. -/
def componentsBelow? (base p : Path) : Option (List Component) :=
  Text.afterLead? base.components p.components

/-- Whether a path comes before another in component-wise order. -/
def lt (p q : Path) : Bool :=
  List.lex p.components q.components Component.lt

/-- Component-wise order as a test for sorting. -/
def le (p q : Path) : Bool :=
  !q.lt p

end Path

end MarkerDoc
