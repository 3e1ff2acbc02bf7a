import MarkerDoc.Shell.Machine
import MarkerDoc.Shell.Wildcard

/-!
# Fields

After filling in, a word falls into fragments.  What was filled in outside quotes is divided into
fields at separators: blanks among them count as one and are dropped at the ends, while every
other separator ends a field.  Wildcards in a field then stand for the files that they match.
-/

namespace MarkerDoc.Shell

/-- A part of a word after filling in. -/
inductive Fragment where
  | kept (s : String) (quoted : Bool)
  /-- To be divided at separators and between arguments. -/
  | divided (s : String)
  /-- To be divided between arguments only. -/
  | arguments (s : String)
deriving DecidableEq

/-- What dividing has come to. -/
structure Division where
  /-- The fields that are complete, the last one first. -/
  done : List Marked := []
  /-- The field under way, backwards. -/
  current : Option Marked := none
  /-- Whether a blank has just ended a field. -/
  afterBlank : Bool := false
  /-- Whether the last text that was divided consists of arguments. -/
  isArguments : Bool := false
  /-- The number of fields that can still be made, if there is a bound. -/
  room : Option Nat := none
  /-- The last field as it is without the separators that have been read behind it. -/
  trimmed : Option (Option Marked) := none

namespace Division

/-- Completes the field under way, which may be empty. -/
def finish (d : Division) : Division :=
  { d with done := (d.current.getD []).reverse :: d.done, current := none
           room := d.room.map (· - 1) }

/-- Adds a character to the field under way. -/
def push (d : Division) (c : Char) (quoted : Bool) : Division :=
  { d with current := some ((c, quoted) :: d.current.getD []) }

/-- Takes a character of a text that is to be divided; the flag says whether the text before it
consists of arguments. -/
def take (separators : List Char) (afterArguments : Bool) (d : Division) (c : Char) : Division :=
  let isSeparator := c == argumentMark || (!d.isArguments && separators.contains c)
  let isBlank := isSeparator && (c == ' ' || c == '\t' || c == '\n' || c == argumentMark)
  if d.room = some 0 then
    if isBlank then { d.push c false with trimmed := d.trimmed.or (some d.current) }
    else
      let trimmed := if isSeparator && d.afterBlank then d.trimmed else none
      { d.push c false with trimmed, afterBlank := false }
  else if d.afterBlank then
    if isBlank then d
    else if isSeparator then { d with afterBlank := false }
    else { d.push c false with afterBlank := false }
  else if isSeparator then
    let endsInBlank := isBlank && !afterArguments && !d.isArguments
    if d.current.isNone && endsInBlank then d
    else if d.room = some 1 then
      { d.push c false with room := some 0, trimmed := some d.current, afterBlank := endsInBlank }
    else { d.finish with afterBlank := endsInBlank }
  else d.push c false

/-- Divides a text, which may consist of arguments. -/
def takeText (separators : List Char) (isArguments : Bool) (d : Division) (s : String) : Division :=
  s.toList.foldl (take separators d.isArguments) { d with afterBlank := false, isArguments }

def add (separators : List Char) (d : Division) : Fragment → Division
  | .kept s quoted =>
    let d := s.toList.foldl (fun d c => d.push c quoted) d
    if quoted then { d with current := some (d.current.getD []) } else d
  | .divided s => d.takeText separators false s
  | .arguments s => d.takeText separators true s

/-- All fields.  Behind arguments there always is one, even if it is empty. -/
def fields (d : Division) : List Marked :=
  let last := if d.isArguments then some (d.current.getD []) else d.trimmed.getD d.current
  d.done.reverse ++ (last.map List.reverse).toList

end Division

namespace Fragment

/-- The fields of a word. -/
def fields (separators : List Char) (fs : List Fragment) : List Marked :=
  (fs.foldl (Division.add separators) {}).fields

/-- The fields of a word, at most as many as given; the last one holds what is left. -/
def fieldsUpTo (bound : Nat) (separators : List Char) (fs : List Fragment) : List Marked :=
  (fs.foldl (Division.add separators) { room := some bound }).fields

/-- The word as one text. -/
def text (fs : List Fragment) : String :=
  String.join (fs.map fun
    | .kept s _ => s
    | .divided s => s
    | .arguments s => s)

/-- The word as a pattern, in which quoted characters stand for themselves. -/
def pattern (fs : List Fragment) : List Wildcard :=
  wildcards (fs.flatMap fun
    | .kept s quoted => marked quoted s
    | .divided s => marked false s
    | .arguments s => marked true s)

/-- What an inner word becomes outside quotes: its plain text is divided as well. -/
def loosen : Fragment → Fragment
  | .kept s false => .divided s
  | f => f

end Fragment

/-- The text of a marked field. -/
def plainField (field : Marked) : String :=
  String.ofList (field.map (·.1))

/-- Divides a field at its slashes. -/
def pathParts : Marked → List Marked
  | [] => [[]]
  | (c, quoted) :: rest =>
    match pathParts rest with
    | part :: parts =>
      if c = '/' then [] :: part :: parts else ((c, quoted) :: part) :: parts
    | [] => [[(c, quoted)]]

/-- The names in a directory that match a pattern; the directory and the one around it have names
as well. -/
def matchingNames (m : Machine) (front : String) (part : Marked) : List String :=
  let ws := wildcards part
  ([".", ".."] ++ m.namesIn (if front = "" then "." else front)).filter (nameMatch ws)

/-- The paths that match the parts of a pattern, from a path on that ends in a slash or is
empty. -/
def matchingPaths (m : Machine) : String → List Marked → List String
  | _, [] => []
  | front, [part] =>
    if hasWildcard part then
      if m.isDir (if front = "" then "." else front) then
        (matchingNames m front part).map (front ++ ·)
      else []
    else
      let path := front ++ plainField part
      if part.isEmpty || m.exists? path then [path] else []
  | front, part :: parts =>
    if hasWildcard part then
      let names := (matchingNames m front part).filter fun n => m.isDir (front ++ n)
      names.flatMap fun n => matchingPaths m (front ++ n ++ "/") parts
    else matchingPaths m (front ++ plainField part ++ "/") parts

/-- Replaces a field with wildcards by the files that match it, if there are any. -/
def expandField (m : Machine) (field : Marked) : List String :=
  let special := field.any fun (c, quoted) => !quoted && (c == '*' || c == '?' || c == '[')
  if m.flags.contains 'f' || !special || !hasWildcard field then [plainField field]
  else
    let found := matchingPaths m "" (pathParts field)
    if found.isEmpty then [plainField field]
    else found.mergeSort fun a b => decide (a ≤ b)

end MarkerDoc.Shell
