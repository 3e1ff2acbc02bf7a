import MarkerDoc.Path
import MarkerDoc.Text.Alphanumeric

/-!
# Documentation records

A module is the documentation of one source file: its package declaration, and its items in the
order of their declarations.  A document is a plain text file that is taken over as it is.

Names are read off the recorded statements.  The directory from which a package loads is found by
going up from the file as long as the directories repeat the front of the package name.
-/

namespace MarkerDoc

/-- What stands between the segments of a package name. -/
def namespaceSeparator : String := "::"

/-- The declaration of a package. -/
structure PackageItem where
  statement : String
  description : String
  line : Nat
deriving DecidableEq

/-- The declared name: the second word of the statement. -/
def PackageItem.name (p : PackageItem) : String :=
  ((Text.words p.statement)[1]?).getD ""

/-- The segments of the declared name. -/
def PackageItem.segments (p : PackageItem) : List String :=
  (Text.splitOn namespaceSeparator p.name).filter (· != "")

/-- What an item documents; only routines carry tests. -/
inductive Item.Kind where
  | routine (test : Option String)
  | attribute
  | modifier
deriving DecidableEq

/-- The documentation of one declaration. -/
structure Item where
  kind : Item.Kind
  statement : String
  description : String
  line : Nat
deriving DecidableEq

namespace Item

def isRoutine (i : Item) : Bool :=
  match i.kind with
  | .routine _ => true
  | _ => false

def isAttribute (i : Item) : Bool :=
  match i.kind with
  | .attribute => true
  | _ => false

def isModifier (i : Item) : Bool :=
  match i.kind with
  | .modifier => true
  | _ => false

/-- A character of a possibly qualified name. -/
def isNameChar (c : Char) : Bool :=
  Text.isAlphanumeric c || c == '_' || c == ':'

/-- The name of a routine: what follows the keyword, as far as name characters go. -/
def routineName (statement : String) : String :=
  let rest := (Text.stripStart? "sub" (Text.trimStart statement)).getD statement
  String.ofList ((Text.trimStart rest).toList.takeWhile isNameChar)

/-- The test of a routine, unless it is blank. -/
def testBody? (i : Item) : Option String :=
  match i.kind with
  | .routine (some test) => if Text.isBlankText test then none else some test
  | _ => none

/-- The name of a routine with its test, if the item is a routine with a test that is not blank. -/
def namedTest? (i : Item) : Option (String × String) :=
  i.testBody?.map fun body => (routineName i.statement, body)

end Item

/-- Whether a module uses an extension that brings attributes and modifiers. -/
inductive Flavor where
  | core
  | extended
deriving DecidableEq

/-- A module is extended when one of its imports is among the known extensions. -/
def Flavor.detect (imports extensions : List String) : Flavor :=
  if imports.any extensions.contains then .extended else .core

/-- The documentation of one source file. -/
structure Module where
  path : Path
  package : PackageItem
  items : List Item
  flavor : Flavor
deriving DecidableEq

namespace Module

def name (m : Module) : String :=
  m.package.name

/-- Goes up from a directory through the given names, nearest first; nothing if a directory has
another name. -/
def ascend? (dir : Path) : List String → Option Path
  | [] => some dir
  | segment :: rest =>
    match dir.fileName?, dir.parent? with
    | some name, some parent =>
      if name = Bytes.ofText segment then ascend? parent rest else none
    | _, _ => none

/-- A directory as it is written for programs: the empty path is the current directory. -/
def orHere (p : Path) : Path :=
  if p.isEmpty then ⟨"."⟩ else p

/-- The directory from which the package can be loaded; the file's own directory if its place does
not repeat the package name. -/
def libraryRoot (m : Module) : Path :=
  match m.path.parent? with
  | none => ⟨"."⟩
  | some dir =>
    if dir.isEmpty then ⟨"."⟩
    else orHere ((ascend? dir m.package.segments.dropLast.reverse).getD dir)

end Module

/-- A plain document. -/
structure Document where
  path : Path
  content : String
deriving DecidableEq

end MarkerDoc
