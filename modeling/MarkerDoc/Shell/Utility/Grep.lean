import MarkerDoc.Shell.Regex
import MarkerDoc.Shell.Utility.Files
import MarkerDoc.Shell.Wildcard

/-!
# Searching lines

Lines of files are searched for regular expressions or plain texts.
-/

namespace MarkerDoc.Shell.Utility

namespace Grep

/-- Replaces escapes that only one way of writing has: those for digits and tabulators, and
groups that are not counted. -/
def spellEscapes : List Char → List Char
  | '\\' :: 'd' :: rest => "[0-9]".toList ++ spellEscapes rest
  | '\\' :: 'D' :: rest => "[^0-9]".toList ++ spellEscapes rest
  | '\\' :: 't' :: rest => '\t' :: spellEscapes rest
  | '\\' :: 'h' :: rest => "[ \t]".toList ++ spellEscapes rest
  | '\\' :: 'A' :: rest => '^' :: spellEscapes rest
  | '\\' :: 'z' :: rest | '\\' :: 'Z' :: rest => '$' :: spellEscapes rest
  | '\\' :: c :: rest => '\\' :: c :: spellEscapes rest
  | '(' :: '?' :: ':' :: rest => '(' :: spellEscapes rest
  | c :: rest => c :: spellEscapes rest
  | [] => []

/-- The expression for patterns, one of which has to match. -/
def expression? (o : Options) (patterns : List String) : Option Regex := do
  let kind := o.last? ['E', 'F', 'G', 'P']
  let one (p : String) : Option Regex :=
    match kind with
    | some 'F' => some (Regex.literal p.toList)
    | some 'E' => Regex.read? { extended := true } p
    | some 'P' => Regex.read? { extended := true } (String.ofList (spellEscapes p.toList))
    | _ => Regex.read? {} p
  let all ← patterns.mapM one
  let joined ← match all with
    | [] => none
    | r :: rs => some (rs.foldl Regex.either r)
  some (if o.has 'i' || o.has 'y' then joined.foldCase else joined)

/-- Whether a match may count: as a whole line or as a word, if that is asked for. -/
def counts (o : Options) (text : Array Char) (m : Regex.Match) : Bool :=
  let isWord (at_ : Nat) : Bool := (text[at_]?).any Regex.isWordChar
  if o.has 'x' then m.start = 0 && m.stop = text.size
  else if o.has 'w' then
    !(m.start != 0 && isWord (m.start - 1)) && !isWord m.stop
  else true

/-- The first match that counts from a position on. -/
def findFrom (o : Options) (r : Regex) (text : Array Char) : Nat → Nat → Option Regex.Match
  | 0, _ => none
  | tries + 1, at_ =>
    match Regex.longest? ((r.matchesAt text at_).filter (counts o text)) with
    | some m => some m
    | none => findFrom o r text tries (at_ + 1)

def find? (o : Options) (r : Regex) (text : Array Char) (at_ : Nat) : Option Regex.Match :=
  findFrom o r text (text.size + 1 - at_) at_

/-- All matches in a line that are not empty, with their positions. -/
def allMatches (o : Options) (r : Regex) (text : Array Char) : Nat → Nat → List (Nat × String)
  | 0, _ => []
  | fuel + 1, at_ =>
    match find? o r text at_ with
    | none => []
    | some m =>
      if m.stop = m.start then allMatches o r text fuel (m.start + 1)
      else (m.start, Regex.slice text m.start m.stop) :: allMatches o r text fuel m.stop

/-- The files below a directory. -/
def filesBelow (m : Machine) : Nat → String → List String
  | 0, _ => []
  | fuel + 1, path =>
    if m.isDir path then (m.namesIn path).flatMap fun n => filesBelow m fuel (pathIn path n)
    else [path]

/-- Whether a file is among those that are asked for. -/
def isWanted (o : Options) (path : String) : Bool :=
  let named (c : Char) : Bool := (o.values c).any fun p =>
    wildMatch (programWildcards p) (baseName path).toList
  (!o.has '\x01' || named '\x01') && !named '\x02'

/-- The positions at which lines begin. -/
def lineStarts (start : Nat) : List String → List Nat
  | [] => []
  | line :: lines => start :: lineStarts (start + line.length + 1) lines

/-- What one file comes to: the output, and whether a line was found. -/
def searchText (o : Options) (r : Regex) (named : Bool) (name text : String) : String × Bool :=
  let lines := (textLines text).zipIdx 1
  let limit := (o.value? 'm').bind String.toNat?
  let hits := lines.filter fun (line, _) =>
    (find? o r line.toList.toArray 0).isSome != o.has 'v'
  let hits := match limit with
    | some n => hits.take n
    | none => hits
  let shown := if name = "-" then "(standard input)" else name
  let label := if named then shown else ""
  let isHit := !hits.isEmpty
  let starts := (lineStarts 0 (textLines text)).toArray
  let lead (mark : String) (n at_ : Nat) : String :=
    (if named then label ++ mark else "") ++ (if o.has 'n' then toString n ++ mark else "") ++
      (if o.has 'b' then toString (starts.getD (n - 1) 0 + at_) ++ mark else "")
  if o.has 'q' then ("", isHit)
  else if o.has 'l' then (if isHit then shown ++ "\n" else "", isHit)
  else if o.has 'L' then (if isHit then "" else shown ++ "\n", !isHit)
  else if o.has 'c' then
    ((if named then label ++ ":" else "") ++ toString hits.length ++ "\n", isHit)
  else if text.toList.contains (Char.ofNat 0) && !o.has 'a' then
    (if isHit then "grep: " ++ shown ++ ": binary file matches\n" else "", isHit)
  else if o.has 'o' then
    (String.join (hits.map fun (line, n) =>
      if o.has 'v' then ""
      else String.join ((allMatches o r line.toList.toArray (line.length + 2) 0).map
        fun (at_, found) => lead ":" n at_ ++ found ++ "\n")), isHit)
  else
    let number (c : Char) : Nat := ((o.value? c).bind String.toNat?).getD (
      ((o.value? 'C').bind String.toNat?).getD 0)
    let after := number 'A'
    let before := number 'B'
    let numbers := hits.map (·.2)
    let isNear (n : Nat) : Bool := numbers.any fun k => k ≤ n + before && n ≤ k + after
    let (shown, _) := (lines.filter fun (_, n) => isNear n).foldl (fun (shown, last) (line, n) =>
      let gap := if (after != 0 || before != 0) && last != 0 && last + 1 < n then "--\n" else ""
      let mark := if numbers.contains n then ":" else "-"
      (shown ++ gap ++ lead mark n 0 ++ line ++ "\n", n)) ("", 0)
    (shown, isHit)

/-- The lines after the last one that is looked at, where the number of hits is limited. -/
def afterHits (o : Options) (r : Regex) (text : String) : String :=
  let limit := ((o.value? 'm').bind String.toNat?).getD 0
  let hits := ((textLines text).zipIdx 1).filter fun (line, _) =>
    (find? o r line.toList.toArray 0).isSome != o.has 'v'
  match (hits.drop (limit - 1)).head? with
  | some (_, n) => if limit = 0 then text else unlines ((textLines text).drop n)
  | none => if limit = 0 then text else ""

end Grep

/-- Searches files. -/
def grepWith (fixed : List Char) (args : List String) : Act Nat := do
  let args := args.map fun arg =>
    match arg.toList with
    | '-' :: c :: cs =>
      if (c :: cs).all Char.isDigit then "-C" ++ String.ofList (c :: cs) else arg
    | _ => arg
  match Options.read "EFGPe:f:ivwxyclLqosnhHm:A:B:C:rRabzIUTu\x01:\x02:\x03"
    [("extended-regexp", 'E'), ("fixed-strings", 'F'), ("basic-regexp", 'G'), ("regexp", 'e'),
      ("file", 'f'), ("ignore-case", 'i'), ("invert-match", 'v'), ("word-regexp", 'w'),
      ("line-regexp", 'x'), ("count", 'c'), ("files-with-matches", 'l'),
      ("files-without-match", 'L'), ("quiet", 'q'), ("silent", 'q'), ("only-matching", 'o'),
      ("no-messages", 's'), ("line-number", 'n'), ("no-filename", 'h'), ("with-filename", 'H'),
      ("max-count", 'm'), ("after-context", 'A'), ("before-context", 'B'), ("context", 'C'),
      ("recursive", 'r'), ("text", 'a'), ("include", '\x01'), ("exclude", '\x02'),
      ("color", '\x03'), ("colour", '\x03'), ("perl-regexp", 'P'), ("byte-offset", 'b')] args with
  | .error e => failWith ("grep: " ++ e) 2
  | .ok o =>
    let o := { o with given := fixed.map (·, "") ++ o.given }
    let m ← get
    let fromFiles := (o.values 'f').map fun file => (m.fileText file).toOption
    if fromFiles.contains none then
      return ← failWith ("grep: " ++ (o.value? 'f').getD "" ++ ": No such file or directory") 2
    let listed := o.values 'e' ++ (fromFiles.filterMap fun t => t).flatMap textLines
    let given := o.has 'e' || o.has 'f'
    if !given && o.operands.isEmpty then
      return ← failWith "Usage: grep [OPTION]... PATTERNS [FILE]..." 2
    let patterns := if given then listed else [o.operands.headD ""]
    let patterns := patterns.flatMap (Text.splitOn "\n")
    let files := if given then o.operands else o.operands.tail
    let recursive := o.has 'r' || o.has 'R'
    let targets := if files.isEmpty then (if recursive then ["."] else ["-"]) else files
    let expanded := if recursive then targets.flatMap fun t =>
        if m.isDir t then
          ((Grep.filesBelow m 64 t).filter (Grep.isWanted o)).map fun p =>
            if files.isEmpty then (Text.stripStart? "./" p).getD p else p
        else [t]
      else targets
    let r? := if patterns.isEmpty then some none
      else (Grep.expression? o patterns).map some
    match r? with
    | none => failWith "grep: Invalid regular expression" 2
    | some r? =>
      let named := (1 < targets.length || recursive || o.has 'H') && !o.has 'h'
      let mut found := false
      let mut faulty := false
      for file in expanded do
        if o.has 'q' && found then pure ()
        else
          match ← contentOf file with
          | .error e =>
            if !o.has 's' then complain (bareComplaint "grep" file e)
            faulty := true
          | .ok text =>
            let (shown, hit) := match r? with
              | some r => Grep.searchText o r named file text
              | none =>
                if o.has 'v' then Grep.searchText { o with given := o.given.filter (·.1 != 'v') }
                  .empty named file text
                else Grep.searchText { o with given := ('v', "") :: o.given } .empty named file text
            say shown
            if hit then found := true
            if file = "-" && o.has 'm' then
              giveBack 0 (Grep.afterHits o (r?.getD .empty) text)
      return if found && (o.has 'q' || !faulty) then 0 else if faulty then 2 else 1

def grep : List String → Act Nat := grepWith []

end MarkerDoc.Shell.Utility
