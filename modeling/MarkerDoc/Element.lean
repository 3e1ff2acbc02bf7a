import MarkerDoc.Token

/-!
# Elements

A source file is a flat sequence of top-level elements: its declarations, the statements between
them, and its comment lines.  This is all that the extraction of documentation has to know about
a file.
-/

namespace MarkerDoc

/-- What a comment line says by its first characters. -/
inductive Marker where
  /-- Documentation of the package, `##!`. -/
  | packageDoc
  /-- Documentation of the declaration that follows, `###`. -/
  | itemDoc
  /-- Any other comment. -/
  | plain
deriving DecidableEq

/-- The characters that a line with the marker begins with; a plain comment has none of its own. -/
def Marker.lead? : Marker → Option String
  | .packageDoc => some "##!"
  | .itemDoc => some "###"
  | .plain => none

/-- What a top-level element is. -/
inductive Element.Kind where
  | package (name : String)
  | routine (name : String)
  | attribute
  | modifier
  | include (module : String)
  | comment (marker : Marker)
  | other
deriving DecidableEq

/-- A top-level element.  Its text is the signature of a declaration, the whole line of a comment,
and otherwise the statement with every gap between tokens written as one space. -/
structure Element where
  kind : Element.Kind
  text : String
  span : Span
  line : Nat
deriving DecidableEq

namespace Element

def isPackage (e : Element) : Bool :=
  match e.kind with
  | .package _ => true
  | _ => false

def marker? (e : Element) : Option Marker :=
  match e.kind with
  | .comment m => some m
  | _ => none

/-- The module that an include names. -/
def include? (e : Element) : Option String :=
  match e.kind with
  | .include m => some m
  | _ => none

end Element

end MarkerDoc
