import MarkerDoc.Shell.CharSet
import MarkerDoc.Text.Basic

/-!
# Regular expressions

The regular expressions that scripts search with, in the basic and the extended way of writing.
Among the matches in a text the one that starts first is taken, and among those the longest.
Groups are numbered by their opening parentheses; what they matched can be referred to.
-/

namespace MarkerDoc.Shell

inductive Regex where
  | empty
  | one (s : CharSet)
  | atStart
  | atEnd
  /-- The border of a word: its beginning, its end, either of them, or neither. -/
  | wordEdge (opening closing : Bool) (negated : Bool)
  | sequence (a b : Regex)
  | either (a b : Regex)
  | repeated (a : Regex) (least : Nat) (most : Option Nat)
  | group (n : Nat) (a : Regex)
  /-- The text that a group matched, once more. -/
  | back (n : Nat)
deriving DecidableEq

namespace Regex

/-- What the groups have matched: number, start and end. -/
abbrev Groups := List (Nat × Nat × Nat)

structure Match where
  start : Nat
  stop : Nat
  groups : Groups
deriving DecidableEq

def size : Regex → Nat
  | .sequence a b | .either a b => a.size + b.size + 1
  | .repeated a least most => a.size + least + most.getD 0 + 1
  | .group _ a => a.size + 1
  | _ => 1

/-- Whether the expression refers back to a group. -/
def refersBack : Regex → Bool
  | .sequence a b | .either a b => a.refersBack || b.refersBack
  | .repeated a _ _ | .group _ a => a.refersBack
  | .back _ => true
  | _ => false

/-- The highest number of a group. -/
def lastGroup : Regex → Nat
  | .sequence a b | .either a b => max a.lastGroup b.lastGroup
  | .repeated a _ _ => a.lastGroup
  | .group n a => max n a.lastGroup
  | _ => 0

/-- A position in a text, with what the groups have matched before it. -/
abbrev Reached := Nat × Groups

/-- Keeps the first of several ways to the same position. -/
def distinct (keepGroups : Bool) (ends : List Reached) : List Reached :=
  ends.foldl (fun kept e =>
    if kept.any fun k => k.1 = e.1 && (!keepGroups || k.2 = e.2) then kept else kept ++ [e]) []

def isWordChar (c : Char) : Bool := c.isAlphanum || c == '_'

/-- The number of neighbouring characters of a set from a position on, up to a limit. -/
def runLength (text : Array Char) (s : CharSet) : Nat → Nat → Nat
  | 0, _ => 0
  | limit + 1, at_ =>
    match text[at_]? with
    | some c => if s.contains c then runLength text s limit (at_ + 1) + 1 else 0
    | none => 0

/-- Whether the same characters stand at two positions. -/
def sameText (text : Array Char) : Nat → Nat → Nat → Bool
  | 0, _, _ => true
  | n + 1, a, b =>
    match text[a]?, text[b]? with
    | some c, some d => c == d && sameText text n (a + 1) (b + 1)
    | _, _ => false

/-- The ends of the matches from a position, in order of preference: more repetitions first. -/
def ends (text : Array Char) (keepGroups : Bool) : Nat → Regex → Reached → List Reached
  | 0, _, _ => []
  | fuel + 1, r, (at_, groups) =>
    let here := [(at_, groups)]
    match r with
    | .empty => here
    | .one s =>
      match text[at_]? with
      | some c => if s.contains c then [(at_ + 1, groups)] else []
      | none => []
    | .atStart => if at_ = 0 then here else []
    | .atEnd => if at_ = text.size then here else []
    | .wordEdge opening closing negated =>
      let before := at_ != 0 && (text[at_ - 1]?).any isWordChar
      let after := (text[at_]?).any isWordChar
      let isEdge := (opening && !before && after) || (closing && before && !after)
      if isEdge != negated then here else []
    | .sequence a b =>
      distinct keepGroups
        ((ends text keepGroups fuel a (at_, groups)).flatMap (ends text keepGroups fuel b))
    | .either a b =>
      distinct keepGroups
        (ends text keepGroups fuel a (at_, groups) ++ ends text keepGroups fuel b (at_, groups))
    | .group n a =>
      (ends text keepGroups fuel a (at_, groups)).map fun (stop, found) =>
        (stop, (n, at_, stop) :: found.filter (·.1 != n))
    | .back n =>
      match groups.find? (·.1 == n) with
      | some (_, start, stop) =>
        if sameText text (stop - start) start at_ then [(at_ + (stop - start), groups)] else []
      | none => []
    | .repeated (.one s) least most =>
      let longest := runLength text s (most.getD text.size) at_
      if longest < least then []
      else (List.range (longest - least + 1)).map fun k => (at_ + longest - k, groups)
    | .repeated a least most =>
      let again := if most = some 0 then [] else
        ((ends text keepGroups fuel a (at_, groups)).filter fun e =>
          at_ < e.1 || least != 0).flatMap
          (ends text keepGroups fuel (.repeated a (least - 1) (most.map (· - 1))))
      distinct keepGroups (if least = 0 then again ++ here else again)

/-- All matches that start at a position. -/
def matchesAt (r : Regex) (text : Array Char) (at_ : Nat) : List Match :=
  (ends text r.refersBack (2 * (r.size + text.size + 16)) r (at_, [])).map fun (stop, groups) =>
    { start := at_, stop, groups }

/-- The longest of some matches; of several, the first. -/
def longest? (found : List Match) : Option Match :=
  found.foldl (fun best m =>
    match best with
    | none => some m
    | some b => if b.stop < m.stop then some m else some b) none

/-- The longest match that starts at a position; of several, the preferred one. -/
def matchAt? (r : Regex) (text : Array Char) (at_ : Nat) : Option Match :=
  longest? (matchesAt r text at_)

/-- The first match that starts at one of the next positions. -/
def findFrom (r : Regex) (text : Array Char) : Nat → Nat → Option Match
  | 0, _ => none
  | tries + 1, at_ =>
    match matchAt? r text at_ with
    | some m => some m
    | none => findFrom r text tries (at_ + 1)

/-- The first match that starts at a position or later. -/
def find? (r : Regex) (text : Array Char) (at_ : Nat) : Option Match :=
  findFrom r text (text.size + 1 - at_) at_

/-- Whether the expression matches somewhere. -/
def occursIn (r : Regex) (text : String) : Bool :=
  (r.find? text.toList.toArray 0).isSome

/-- The part of a text between two positions. -/
def slice (text : Array Char) (start stop : Nat) : String :=
  String.ofList (text.extract start stop).toList

/-- What a group matched; group zero is the whole match. -/
def Match.groupText (m : Match) (text : Array Char) (n : Nat) : String :=
  if n = 0 then slice text m.start m.stop
  else
    match m.groups.find? (·.1 == n) with
    | some (_, start, stop) => slice text start stop
    | none => ""

/-- Replaces matches from the n-th on, all of them or only that one, and counts them.  An empty
match right behind another match does not count. -/
def replaceFrom (r : Regex) (new : Match → String) (nth : Nat) (all : Bool) (text : Array Char) :
    Nat → Nat → Nat → Option Nat → String × Nat
  | 0, at_, _, _ => (slice text at_ text.size, 0)
  | fuel + 1, at_, count, lastStop =>
    match r.find? text at_ with
    | none => (slice text at_ text.size, 0)
    | some m =>
      if m.start = m.stop && lastStop = some m.start then
        if at_ < text.size then
          let (rest, hits) := replaceFrom r new nth all text fuel (at_ + 1) count none
          (slice text at_ (at_ + 1) ++ rest, hits)
        else ("", 0)
      else
        let before := slice text at_ m.start
        let wanted := count + 1 = nth || (all && nth ≤ count + 1)
        let shown := if wanted then new m else slice text m.start m.stop
        let own := if wanted then 1 else 0
        if wanted && !all then (before ++ shown ++ slice text m.stop text.size, 1)
        else if m.start = m.stop then
          if m.stop < text.size then
            let (rest, hits) := replaceFrom r new nth all text fuel (m.stop + 1) (count + 1) none
            (before ++ shown ++ slice text m.stop (m.stop + 1) ++ rest, hits + own)
          else (before ++ shown, own)
        else
          let (rest, hits) := replaceFrom r new nth all text fuel m.stop (count + 1) (some m.stop)
          (before ++ shown ++ rest, hits + own)

/-- Replaces matches in a text, and counts them. -/
def replace (r : Regex) (new : Match → String) (nth : Nat) (all : Bool) (text : Array Char) :
    String × Nat :=
  replaceFrom r new nth all text (text.size + 2) 0 0 none

def char (c : Char) : Regex := .one (CharSet.single c)

/-- The expression for a text that stands for itself. -/
def literal (cs : List Char) : Regex :=
  cs.foldr (fun c r => .sequence (char c) r) .empty

/-- Makes letters match in either case. -/
def foldCase : Regex → Regex
  | .one s => .one s.foldCase
  | .sequence a b => .sequence a.foldCase b.foldCase
  | .either a b => .either a.foldCase b.foldCase
  | .repeated a least most => .repeated a.foldCase least most
  | .group n a => .group n a.foldCase
  | r => r

/-! ## Reading -/

/-- A way of writing regular expressions. -/
structure Dialect where
  /-- Operators are written without a backslash. -/
  extended : Bool := false
  /-- Control characters and slashes have escapes, also in sets. -/
  escapes : Bool := false

/-- What is left to read, and the number of groups so far. -/
structure Source where
  rest : List Char
  groups : Nat := 0

abbrev Reader := StateT Source Option

/-- Bounds of a repetition such as `2,3`. -/
def bounds? (cs : List Char) : Option (Nat × Option Nat) :=
  let number (s : String) : Option Nat := if s = "" then none else s.toNat?
  match Text.splitOn "," (String.ofList cs) with
  | [n] => (number n).map fun n => (n, some n)
  | ["", b] => (number b).map fun b => (0, some b)
  | [a, ""] => (number a).map fun a => (a, none)
  | [a, b] => do some (← number a, some (← number b))
  | _ => none

/-- The operator at the head, where the basic way of writing marks most operators with a
backslash. -/
def special? (d : Dialect) : List Char → Option (Char × List Char)
  | '\\' :: c :: rest =>
    if !d.extended && ("()|+?".toList.contains c || c == leftBrace || c == rightBrace) then
      some (c, rest)
    else none
  | c :: rest =>
    if c == '*' || (d.extended && ("()|+?".toList.contains c || c == leftBrace)) then
      some (c, rest)
    else none
  | [] => none

/-- A repetition in braces, read after the opening one. -/
def interval? (d : Dialect) (cs : List Char) : Option ((Nat × Option Nat) × List Char) := do
  let inside := cs.takeWhile fun c => c.isDigit || c == ','
  let bounds ← bounds? inside
  let closing := if d.extended then [rightBrace] else ['\\', rightBrace]
  some (bounds, ← Text.afterLead? closing (cs.drop inside.length))

/-- The set of the characters of words, of blanks, or the control character that an escape stands
for. -/
def escaped? (d : Dialect) (c : Char) : Option Regex :=
  let word := [('a', 'z'), ('A', 'Z'), ('0', '9'), ('_', '_')]
  let space := [('\t', '\r'), (' ', ' ')]
  let control := if d.escapes then
      match c with
      | 'n' => some (char '\n')
      | 't' => some (char '\t')
      | 'r' => some (char '\r')
      | 'f' => some (char (Char.ofNat 12))
      | 'v' => some (char (Char.ofNat 11))
      | 'a' => some (char (Char.ofNat 7))
      | _ => none
    else
      match c with
      | 'b' => some (.wordEdge true true false)
      | 'B' => some (.wordEdge true true true)
      | '<' => some (.wordEdge true false false)
      | '>' => some (.wordEdge false true false)
      | 'w' => some (.one ⟨false, word⟩)
      | 'W' => some (.one ⟨true, word⟩)
      | 's' => some (.one ⟨false, space⟩)
      | 'S' => some (.one ⟨true, space⟩)
      | _ => if c = backquote then some .atStart else if c = singleQuote then some .atEnd else none
  control

mutual

/-- Alternatives up to the end or a closing parenthesis. -/
def readEither (d : Dialect) : Nat → Reader Regex
  | 0 => failure
  | fuel + 1 => do
    let a ← readSequence d fuel true
    match special? d (← get).rest with
    | some ('|', rest) =>
      modify ({ · with rest })
      let b ← readEither d fuel
      return .either a b
    | _ => return a

/-- Parts one after the other; `first` says whether none has been read. -/
def readSequence (d : Dialect) : Nat → Bool → Reader Regex
  | 0, _ => failure
  | fuel + 1, first => do
    let rest := (← get).rest
    match rest, special? d rest with
    | [], _ => return .empty
    | _, some ('|', _) | _, some (')', _) => return .empty
    | _, _ =>
      let part ← readPart d fuel first
      let part ← if part = .atStart then pure part else readRepeats d fuel part
      let more ← readSequence d fuel (part == .atStart)
      return .sequence part more

/-- A single part. -/
def readPart (d : Dialect) : Nat → Bool → Reader Regex
  | 0, _ => failure
  | fuel + 1, first => do
    let source ← get
    let advance (r : Regex) (rest : List Char) : Reader Regex := do
      modify ({ · with rest })
      return r
    match special? d source.rest with
    | some ('(', rest) =>
      let n := source.groups + 1
      set { source with rest, groups := n }
      let inside ← readEither d fuel
      match special? d (← get).rest with
      | some (')', rest) => advance (.group n inside) rest
      | _ => failure
    | some ('*', rest) => advance (char '*') rest
    | some (op, rest) =>
      if d.extended then advance (char op) rest
      else if first then advance (char op) rest
      else failure
    | none =>
      match source.rest with
      | [] => failure
      | c :: rest =>
        if c = '.' then advance (.one CharSet.all) rest
        else if c = '^' && (d.extended || first) then advance .atStart rest
        else if c = '$' && (d.extended || rest.isEmpty ||
            (special? d rest).any fun (op, _) => op == ')' || op == '|') then
          advance .atEnd rest
        else if c = '[' then
          match CharSet.read? ['^'] d.escapes rest with
          | some (s, rest) => advance (.one s) rest
          | none => failure
        else if c = '\\' then
          match rest with
          | e :: rest =>
            if '1' ≤ e && e ≤ '9' && !d.escapes then advance (.back (e.toNat - 0x30)) rest
            else advance ((escaped? d e).getD (char e)) rest
          | [] => failure
        else advance (char c) rest

/-- The repetitions that follow a part. -/
def readRepeats (d : Dialect) : Nat → Regex → Reader Regex
  | 0, _ => failure
  | fuel + 1, part => do
    let again (r : Regex) (rest : List Char) : Reader Regex := do
      modify ({ · with rest })
      readRepeats d fuel r
    match special? d (← get).rest with
    | some ('*', rest) => again (.repeated part 0 none) rest
    | some ('+', rest) => again (.repeated part 1 none) rest
    | some ('?', rest) => again (.repeated part 0 (some 1)) rest
    | some (c, rest) =>
      if c = leftBrace then
        match interval? d rest with
        | some ((least, most), rest) => again (.repeated part least most) rest
        | none => if d.extended then return part else failure
      else return part
    | none => return part

end

/-- Reads a regular expression. -/
def read? (d : Dialect) (pattern : String) : Option Regex := do
  let cs := pattern.toList
  let (r, source) ← (readEither d (4 * cs.length + 8)).run { rest := cs }
  if source.rest.isEmpty then some r else none

end Regex

end MarkerDoc.Shell
