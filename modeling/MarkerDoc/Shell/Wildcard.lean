import MarkerDoc.Shell.CharSet

/-!
# Wildcards

Patterns that a whole text has to match: `*` stands for any text, `?` for one character and a
bracketed set for one of its characters.  A quoted character stands for itself.  Which characters
complement a set depends on who reads the pattern.
-/

namespace MarkerDoc.Shell

/-- One part of a pattern. -/
inductive Wildcard where
  | exactly (c : Char)
  | one (s : CharSet)
  | any
deriving DecidableEq

/-- A text in which every character is marked as quoted or not. -/
abbrev Marked := List (Char × Bool)

/-- A text in which every character has the same mark. -/
def marked (quoted : Bool) (s : String) : Marked :=
  s.toList.map (·, quoted)

/-- A set in a marked text, read after its opening bracket.  Quoted characters stand for
themselves, so they are passed on behind a backslash. -/
def markedSet? (marks : List Char) (rest : Marked) : Option (CharSet × Marked) :=
  let escaped := rest.flatMap fun (c, quoted) =>
    if quoted || c = '\\' then ['\\', c] else [c]
  (CharSet.read? marks true escaped).map fun (s, after) =>
    let rec drop : Nat → Marked → Marked
      | n, (c, quoted) :: more =>
        let size := if quoted || c = '\\' then 2 else 1
        if size ≤ n then drop (n - size) more else (c, quoted) :: more
      | _, [] => []
    (s, drop (escaped.length - after.length) rest)

/-- Reads the parts of a pattern; `marks` are the characters that complement a set. -/
def wildcardsFrom (marks : List Char) : Nat → Marked → List Wildcard
  | 0, _ => []
  | _, [] => []
  | fuel + 1, (c, quoted) :: rest =>
    if quoted then .exactly c :: wildcardsFrom marks fuel rest
    else if c = '*' then .any :: wildcardsFrom marks fuel rest
    else if c = '?' then .one CharSet.all :: wildcardsFrom marks fuel rest
    else if c = '[' then
      match markedSet? marks rest with
      | some (s, after) => .one s :: wildcardsFrom marks fuel after
      | none => .exactly c :: wildcardsFrom marks fuel rest
    else if c = '\\' then
      match rest with
      | (d, _) :: rest => .exactly d :: wildcardsFrom marks fuel rest
      | [] => [.exactly c]
    else .exactly c :: wildcardsFrom marks fuel rest

/-- A pattern of the shell. -/
def wildcards (cs : Marked) : List Wildcard :=
  wildcardsFrom ['!'] (cs.length + 1) cs

/-- A pattern that is given to a program. -/
def programWildcards (pattern : String) : List Wildcard :=
  wildcardsFrom ['!', '^'] (pattern.length + 1) (marked false pattern)

/-- Whether a text has anything that is not to be taken literally. -/
def hasWildcard (cs : Marked) : Bool :=
  (wildcards cs).any fun
    | .exactly _ => false
    | _ => true

/-- Whether a whole text matches. -/
def wildMatch : List Wildcard → List Char → Bool
  | [], cs => cs.isEmpty
  | .any :: ws, [] => wildMatch ws []
  | .any :: ws, c :: cs => wildMatch ws (c :: cs) || wildMatch (.any :: ws) cs
  | .exactly d :: ws, c :: cs => c == d && wildMatch ws cs
  | .one s :: ws, c :: cs => s.contains c && wildMatch ws cs
  | _ :: _, [] => false
termination_by ws cs => ws.length + cs.length

/-- Whether a name matches a pattern, where a dot in front has to be written as such. -/
def nameMatch (ws : List Wildcard) (name : String) : Bool :=
  let hidden := name.toList.head? = some '.'
  (!hidden || ws.head? = some (.exactly '.')) && wildMatch ws name.toList

/-- What stands between arguments that are put together into one text. -/
def argumentMark : Char := Char.ofNat 0

/-- A text up to the end of its first argument. -/
def firstArgument (cs : List Char) : List Char :=
  cs.takeWhile (· != argumentMark)

/-- Drops the shortest or longest front that matches a pattern.  In a text of several arguments the
front is looked for in the first one. -/
def dropFront (longest : Bool) (pattern : List Wildcard) (cs : List Char) : List Char :=
  let size := if longest then cs.length else (firstArgument cs).length
  let hits := (List.range (size + 1)).filter fun n =>
    wildMatch pattern (firstArgument (cs.take n))
  match if longest then hits.getLast? else hits.head? with
  | some n => cs.drop n
  | none => cs

/-- Drops the shortest or longest end that matches a pattern.  In a text of several arguments the
longest end is looked for in the first one, and everything behind it is dropped as well. -/
def dropBack (longest : Bool) (pattern : List Wildcard) (cs : List Char) : List Char :=
  let size := if longest then (firstArgument cs).length else cs.length
  let hits := (List.range (size + 1)).filter fun n =>
    wildMatch pattern (firstArgument (cs.drop n))
  match if longest then hits.head? else hits.getLast? with
  | some n => cs.take n
  | none => cs

end MarkerDoc.Shell
