import MarkerDoc.DocBlock
import MarkerDoc.Element.Scan
import MarkerDoc.FileError
import MarkerDoc.Module
import MarkerDoc.Settings

/-!
# Extracting a module

The block of a package is the run of package comments directly after its declaration.  The block
of every other item is the run of item comments directly before its declaration.  Any other
element in between severs the two.

Private routines and items with the ignore directive are left out in silence.  A malformed block
of an item that is not left out fails the whole file, and the first one in the order of the source
is reported, with the package's own block first.
-/

namespace MarkerDoc

/-- Why a file gives no module. -/
inductive ExtractError where
  | missingPackage
  | malformed (block : Malformed)
  | unreadable (cause : FileError)
deriving DecidableEq

def ExtractError.message : ExtractError → String
  | .missingPackage => "no package declaration found"
  | .malformed block => block.message
  | .unreadable cause => "failed to read source: " ++ cause.message

/-- Why something is left out on purpose. -/
inductive SkipReason where
  /-- The name of the routine is private. -/
  | isPrivate
  /-- The block begins with the ignore directive. -/
  | isIgnored
deriving DecidableEq

def SkipReason.message : SkipReason → String
  | .isPrivate => "private"
  | .isIgnored => "ignored"

/-- Something extracted, or the reason for leaving it out. -/
inductive Extraction (α : Type) where
  | found (value : α)
  | skipped (reason : SkipReason)
deriving DecidableEq

def Extraction.map {α β : Type} (f : α → β) : Extraction α → Extraction β
  | .found a => .found (f a)
  | .skipped r => .skipped r

namespace Extract

/-- A name is private when its last segment begins with an underscore. -/
def isPrivate (name : String) : Bool :=
  Text.startsWith "_" (Text.afterLast namespaceSeparator name)

/-- The comment lines with a marker at the head of a list of elements. -/
def leadingRun (marker : Marker) (es : List Element) : List CommentLine :=
  (es.takeWhile (·.marker? == some marker)).filterMap CommentLine.ofElement?

/-- The block of a package, from the elements after its declaration. -/
def packageBlock (after : List Element) : Except Malformed DocBlock :=
  DocBlock.classify (leadingRun .packageDoc after) .packageDoc

/-- The block of an item, from the elements before its declaration, nearest first. -/
def itemBlock (before : List Element) : Except Malformed DocBlock :=
  DocBlock.classify (leadingRun .itemDoc before).reverse .itemDoc

/-- The package item of a declaration with the elements after it. -/
def packageItem (e : Element) (after : List Element) :
    Except Malformed (Extraction PackageItem) := do
  match ← packageBlock after with
  | .ignored => pure (.skipped .isIgnored)
  | .documented description _ =>
    pure (.found { statement := e.text, description, line := e.line })

/-- The item of a declaration with the elements before it, nearest first. -/
def documentedItem (kind : Option String → Item.Kind) (before : List Element) (e : Element) :
    Except Malformed (Extraction Item) := do
  match ← itemBlock before with
  | .ignored => pure (.skipped .isIgnored)
  | .documented description test =>
    pure (.found { kind := kind test, statement := e.text, description, line := e.line })

def attributeItem (before : List Element) (e : Element) : Except Malformed (Extraction Item) :=
  documentedItem (fun _ => .attribute) before e

def modifierItem (before : List Element) (e : Element) : Except Malformed (Extraction Item) :=
  documentedItem (fun _ => .modifier) before e

/-- The item of a routine.  A private name is left out before its block is looked at. -/
def routineItem (before : List Element) (e : Element) : Except Malformed (Extraction Item) :=
  match e.kind with
  | .routine name =>
    if isPrivate name then .ok (.skipped .isPrivate) else documentedItem .routine before e
  | _ => documentedItem .routine before e

/-- The item that an element declares in a module of the given flavor, if it declares one. -/
def declared? (flavor : Flavor) (before : List Element) (e : Element) :
    Option (Except Malformed (Extraction Item)) :=
  match e.kind, flavor with
  | .routine _, _ => some (routineItem before e)
  | .attribute, .extended => some (attributeItem before e)
  | .modifier, .extended => some (modifierItem before e)
  | _, _ => none

/-- The items that some elements declare, given the elements before them, nearest first. -/
def items (flavor : Flavor) (before : List Element) : List Element → Except Malformed (List Item)
  | [] => .ok []
  | e :: es => do
    match declared? flavor before e with
    | none => items flavor (e :: before) es
    | some result =>
      match ← result with
      | .skipped _ => items flavor (e :: before) es
      | .found i => pure (i :: (← items flavor (e :: before) es))

/-- The first package declaration with the elements after it. -/
def firstPackage? : List Element → Option (Element × List Element)
  | [] => none
  | e :: es => if e.isPackage then some (e, es) else firstPackage? es

end Extract

namespace Module

/-- Builds the module that a stream of elements declares, or says why there is none. -/
def ofElements (extensions : List String) (path : Path) (es : List Element) :
    Except ExtractError (Extraction Module) :=
  match Extract.firstPackage? es with
  | none => .error .missingPackage
  | some (e, after) =>
    match Extract.packageItem e after with
    | .error block => .error (.malformed block)
    | .ok (.skipped reason) => .ok (.skipped reason)
    | .ok (.found package) =>
      let flavor := Flavor.detect (es.filterMap Element.include?) extensions
      match Extract.items flavor [] es with
      | .error block => .error (.malformed block)
      | .ok items => .ok (.found { path, package, items, flavor })

/-- Builds the module of a source text, or says why there is none. -/
def extract (settings : ExtractSettings) (path : Path) (source : String) :
    Except ExtractError (Extraction Module) :=
  ofElements settings.extensions path (Element.scan source)

/-- Reads a source file and builds its module. -/
def extractFile (settings : ExtractSettings) (read : Path → Except FileError String) (path : Path) :
    Except ExtractError (Extraction Module) :=
  match read path with
  | .ok source => extract settings path source
  | .error cause => .error (.unreadable cause)

/-- The module of a source text that is expected to have one, or a sentence saying why not. -/
def expectFound (path : Path) (source : String) : Except String Module :=
  match extract {} path source with
  | .ok (.found m) => .ok m
  | .ok (.skipped reason) => .error ("Module skipped: " ++ reason.message)
  | .error e => .error ("Extract error: " ++ e.message)

/-- The reason for leaving out a source text that is expected to be left out, or a sentence saying
what came of it instead. -/
def expectSkipped (path : Path) (source : String) : Except String SkipReason :=
  match extract {} path source with
  | .ok (.found m) => .error ("Expected skip, got module " ++ m.name)
  | .ok (.skipped reason) => .ok reason
  | .error e => .error ("Extract error: " ++ e.message)

/-- What comes of a source text, with an error put into a sentence. -/
def outcome (path : Path) (source : String) : Except String (Extraction Module) :=
  match extract {} path source with
  | .ok result => .ok result
  | .error e => .error ("Extract error: " ++ e.message)

end Module

end MarkerDoc
