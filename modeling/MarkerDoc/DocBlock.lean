import MarkerDoc.Element
import MarkerDoc.Text.Alphanumeric

/-!
# Documentation blocks

A run of marker comments is read as one block: its description, and the body of an example test
if one of its regions is fenced.  The first line of a block may instead hold the directive that
leaves the item out.

The first fenced region is the test.  What comes after it, later fences included, belongs to the
description.  A fence that is opened and never closed makes the block malformed, and so does a
first line that looks like a directive and is not the one that exists.
-/

namespace MarkerDoc

/-- Why a block cannot be read. -/
inductive MalformedReason where
  | unknownDirective (text : String)
  | unterminatedFence
deriving DecidableEq

def MalformedReason.message : MalformedReason → String
  | .unknownDirective text => "unrecognized directive `" ++ text ++ "`"
  | .unterminatedFence => "test fence opened but never closed"

/-- A block that cannot be read, with the line that is at fault. -/
structure Malformed where
  line : Nat
  reason : MalformedReason
deriving DecidableEq

def Malformed.message (m : Malformed) : String :=
  "malformed comment block at line " ++ toString m.line ++ ": " ++ m.reason.message

/-- One comment line as it stands in the source, marker included. -/
structure CommentLine where
  marker : Marker
  raw : String
  line : Nat
deriving DecidableEq

/-- A comment element as a comment line. -/
def CommentLine.ofElement? (e : Element) : Option CommentLine :=
  e.marker?.map fun marker => { marker, raw := e.text, line := e.line }

/-- What a block of comment lines says. -/
inductive DocBlock where
  /-- The block asks for its item to be left out. -/
  | ignored
  | documented (description : String) (test : Option String)
deriving DecidableEq

namespace DocBlock

/-- The directive that leaves an item out. -/
def ignoreDirective : String := "#[ignore(item)]"

/-- What every directive begins with, known or not. -/
def directiveLead : String := "#[ignore"

def fence : String := "```"

/-- The text of a line behind its marker and at most one space; nothing if the line does not
carry the marker. -/
def stripMarker? (raw : String) (marker : Marker) : Option String := do
  let lead ← marker.lead?
  let rest ← Text.stripStart? lead raw
  pure ((Text.stripStart? " " rest).getD rest)

/-- A fence, with or without the name of a language after it. -/
def isOpeningFence (text : String) : Bool :=
  match Text.stripStart? fence (Text.trimEnd text) with
  | some tag => tag.toList.all fun c => Text.isAlphanumeric c || "-_+.".toList.contains c
  | none => false

/-- A fence alone on its line. -/
def isClosingFence (text : String) : Bool :=
  Text.trimEnd text == fence

/-- Joins the lines of a description, without the blank lines at either end. -/
def joinDescription (lines : List String) : String :=
  Text.joinWith "\n" (Text.dropEndWhile Text.isBlankText (lines.dropWhile Text.isBlankText))

/-- A line of a block with its place in the source. -/
abbrev Line := Nat × String

/-- Where the reading of a block stands: no fence was opened, one was opened at a line, or it was
closed again. -/
inductive FenceState where
  | before
  | opened (line : Nat)
  | closed
deriving DecidableEq

/-- What has been read of a block. -/
structure Reading where
  state : FenceState := .before
  description : List String := []
  test : List String := []
deriving DecidableEq

/-- Reads one more line.  Only the first fence opens a region. -/
def Reading.step (r : Reading) (l : Line) : Reading :=
  match r.state with
  | .before =>
    if isOpeningFence l.2 then { r with state := .opened l.1 }
    else { r with description := r.description ++ [l.2] }
  | .opened _ =>
    if isClosingFence l.2 then { r with state := .closed }
    else { r with test := r.test ++ [l.2] }
  | .closed => { r with description := r.description ++ [l.2] }

/-- What the lines say, when all have been read. -/
def Reading.result (r : Reading) : Except Malformed DocBlock :=
  match r.state with
  | .before => .ok (.documented (joinDescription r.description) none)
  | .opened line => .error ⟨line, .unterminatedFence⟩
  | .closed => .ok (.documented (joinDescription r.description) (some (Text.joinWith "\n" r.test)))

/-- Reads the text of a block whose first line is not a directive. -/
def ofLines (lines : List Line) : Except Malformed DocBlock :=
  (lines.foldl Reading.step {}).result

/-- The lines of the longest front that carries the marker, each behind its marker. -/
def stripped (lines : List CommentLine) (expected : Marker) : List Line :=
  (lines.takeWhile (·.marker == expected)).filterMap fun l =>
    (stripMarker? l.raw expected).map fun text => (l.line, text)

/-- Reads a run of comment lines that are expected to carry a marker. -/
def classify (lines : List CommentLine) (expected : Marker) : Except Malformed DocBlock :=
  match stripped lines expected with
  | [] => .ok (.documented "" none)
  | (line, text) :: rest =>
    let first := Text.trimEnd text
    if first = ignoreDirective then .ok .ignored
    else if Text.startsWith directiveLead (Text.trimStart first) then
      .error ⟨line, .unknownDirective (Text.trim first)⟩
    else ofLines ((line, text) :: rest)

end DocBlock

end MarkerDoc
