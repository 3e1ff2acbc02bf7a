import MarkerDoc.Shell.CharSet
import MarkerDoc.Shell.Utility.Lines

/-!
# Programs that work on columns and characters

Cutting lines into fields, putting lines side by side, and replacing or deleting characters.
-/

namespace MarkerDoc.Shell.Utility

/-- Ranges of positions; an open end has no last position. -/
abbrev Positions := List (Nat × Option Nat)

/-- Reads ranges of positions. -/
def positions? (s : String) : Option Positions :=
  (Text.splitOn "," s).mapM fun part =>
    match Text.splitOn "-" part with
    | [n] => do
      let n ← n.toNat?
      if n = 0 then none else some (n, some n)
    | ["", ""] => none
    | ["", b] => b.toNat?.map fun b => (1, some b)
    | [a, ""] => do
      let a ← a.toNat?
      if a = 0 then none else some (a, none)
    | [a, b] => do
      let a ← a.toNat?
      let b ← b.toNat?
      if a = 0 || b < a then none else some (a, some b)
    | _ => none

/-- Whether a position is in one of some ranges. -/
def Positions.contains (ps : Positions) (n : Nat) : Bool :=
  ps.any fun (a, b) => a ≤ n && b.all (n ≤ ·)

/-- The elements at chosen positions. -/
def Positions.pick {α : Type} (ps : Positions) (complement : Bool) (xs : List α) : List α :=
  (xs.zipIdx 1).filterMap fun (x, n) => if ps.contains n != complement then some x else none

/-- Cuts columns out of lines. -/
def cut (args : List String) : Act Nat :=
  withOptions "cut" "b:c:f:d:sno:x" [("bytes", 'b'), ("characters", 'c'), ("fields", 'f'),
    ("delimiter", 'd'), ("only-delimited", 's'), ("output-delimiter", 'o'), ("complement", 'x')] 1
  args fun o => do
    let kind := o.last? ['b', 'c', 'f']
    match kind.bind o.value? with
    | none => failWith "cut: you must specify a list of bytes, characters, or fields" 1
    | some list =>
      match positions? (list.map fun c => if c = ' ' then ',' else c) with
      | none => failWith ("cut: invalid field value " ++ inQuotes list) 1
      | some ps =>
        let delimiter := (o.value? 'd').getD "\t"
        if 1 < delimiter.length then failWith "cut: the delimiter must be a single character" 1
        else
          let between := (o.value? 'o').getD (if kind = some 'f' then delimiter else "")
          let (found, ok) ← contentsOf (plainComplaint "cut") o.operands
          for (_, text) in found do
            say (String.join ((textLines text).map fun line =>
              if kind = some 'f' then
                let fields := Text.splitOn delimiter line
                if fields.length ≤ 1 then (if o.has 's' then "" else line ++ "\n")
                else Text.joinWith between (ps.pick (o.has 'x') fields) ++ "\n"
              else String.ofList (ps.pick (o.has 'x') line.toList) ++ "\n"))
          return if ok then 0 else 1

/-- The text that separators with escapes stand for. -/
def separatorList : List Char → List String
  | '\\' :: c :: rest =>
    let s := match c with
      | 'n' => "\n"
      | 't' => "\t"
      | '0' => ""
      | c => String.ofList [c]
    s :: separatorList rest
  | c :: rest => String.ofList [c] :: separatorList rest
  | [] => []

/-- Joins texts with separators that take turns. -/
def joinTurns (separators : List String) (texts : List String) : String :=
  String.join (texts.zipIdx.map fun (t, i) =>
    (if i = 0 then "" else separators.getD ((i - 1) % max 1 separators.length) "") ++ t)

/-- Puts lines of files side by side. -/
def paste (args : List String) : Act Nat :=
  withOptions "paste" "d:sz" [("delimiters", 'd'), ("serial", 's')] 1 args fun o => do
    let separators := separatorList ((o.value? 'd').getD "\t").toList
    let files := if o.operands.isEmpty then ["-"] else o.operands
    if o.has 's' then
      let (found, ok) ← contentsOf (plainComplaint "paste") files
      for (_, text) in found do
        say (joinTurns separators (textLines text) ++ "\n")
      return if ok then 0 else 1
    else
      let (found, ok) ← contentsOf (plainComplaint "paste") (files.eraseDups)
      if !ok then return 1
      let inputs := files.count "-"
      let columns := files.zipIdx.map fun (file, i) =>
        let lines := textLines ((found.find? (·.1 == file)).map (·.2) |>.getD "")
        if file = "-" && 1 < inputs then
          let turn := (files.take i).count "-"
          (lines.zipIdx.filter fun (_, k) => k % inputs == turn).map (·.1)
        else lines
      let height := (columns.map List.length).foldl max 0
      say (unlines ((List.range height).map fun i =>
        joinTurns separators (columns.map fun c => c.getD i "")))
      return 0

/-- All characters between two. -/
def charRange (a b : Char) : List Char :=
  (List.range (b.toNat + 1 - a.toNat)).map fun i => Char.ofNat (a.toNat + i)

/-- A part of a set of characters for replacement. -/
inductive TrPart where
  | chars (cs : List Char)
  /-- One character as often as needed. -/
  | many (c : Char)

/-- The character at the head, where escapes stand for others. -/
def trChar (cs : List Char) : Option (Char × List Char) :=
  match cs with
  | '\\' :: rest =>
    match escape? .bare rest with
    | some found => some found
    | none =>
      match rest with
      | c :: rest => some (c, rest)
      | [] => some ('\\', [])
  | c :: rest => some (c, rest)
  | [] => none

/-- Reads a set of characters; nothing if there is a fault in it. -/
def trParts : Nat → List Char → Option (List TrPart)
  | 0, _ => none
  | _, [] => some []
  | fuel + 1, cs =>
    let plain : Option (List TrPart) := do
      let (a, rest) ← trChar cs
      match rest with
      | '-' :: more =>
        match trChar more with
        | some (b, rest) =>
          if b < a then none else (trParts fuel rest).map (.chars (charRange a b) :: ·)
        | none => (trParts fuel rest).map (.chars [a] :: ·)
      | rest => (trParts fuel rest).map (.chars [a] :: ·)
    match cs with
    | '[' :: ':' :: rest =>
      let name := rest.takeWhile Char.isAlpha
      match rest.drop name.length with
      | ':' :: ']' :: after => do
        let ranges ← CharSet.named? (String.ofList name)
        let all := (ranges.flatMap fun (a, b) => charRange a b).mergeSort
          fun a b => decide (a ≤ b)
        (trParts fuel after).map (.chars all :: ·)
      | _ => plain
    | '[' :: '=' :: c :: '=' :: ']' :: rest => (trParts fuel rest).map (.chars [c] :: ·)
    | '[' :: rest =>
      match trChar rest with
      | some (c, '*' :: after) =>
        let digits := after.takeWhile Char.isDigit
        match after.drop digits.length with
        | ']' :: after =>
          let n := if digits.head? = some '0' then (leadingNumber 8 digits).1
            else (String.ofList digits).toNat?.getD 0
          let part := if n = 0 then TrPart.many c else .chars (List.replicate n c)
          (trParts fuel after).map (part :: ·)
        | _ => plain
      | _ => plain
    | _ => plain

/-- The characters of a set; what may be repeated fills it up to a size. -/
def trChars (size : Nat) (parts : List TrPart) : List Char :=
  let fixed := (parts.map fun
    | .chars cs => cs.length
    | .many _ => 0).foldl (· + ·) 0
  parts.flatMap fun
    | .chars cs => cs
    | .many c => List.replicate (size - fixed) c

/-- Drops repeated neighbours that belong to a set. -/
def squeeze (set : Char → Bool) : Option Char → List Char → List Char
  | _, [] => []
  | last, c :: cs =>
    if last = some c && set c then squeeze set last cs else c :: squeeze set (some c) cs

/-- Replaces, deletes or squeezes characters. -/
def tr (args : List String) : Act Nat := do
  match Options.readFront "cCdst" [("complement", 'c'), ("delete", 'd'), ("squeeze-repeats", 's'),
    ("truncate-set1", 't')] args with
  | .error e => failWith ("tr: " ++ e) 1
  | .ok o =>
    let read (s : String) : Option (List TrPart) := trParts (s.length + 1) s.toList
    match o.operands.mapM read with
    | none => failWith "tr: range-endpoints are in reverse collating sequence order" 1
    | some sets =>
      let deletes := o.has 'd'
      let squeezes := o.has 's'
      let first := trChars 0 (sets.getD 0 [])
      let complement := o.has 'c' || o.has 'C'
      let first := if complement then
          (charRange (Char.ofNat 0) (Char.ofNat 255)).filter fun c => !first.contains c
        else first
      let second := trChars first.length (sets.getD 1 [])
      let wanted := if deletes && !squeezes then 1 else if deletes then 2
        else if squeezes then 1 else 2
      if sets.length < wanted then
        if sets.isEmpty then failWith "tr: missing operand" 1
        else failWith ("tr: missing operand after " ++ inQuotes (o.operands.getD 0 "")) 1
      else if 2 < sets.length || (deletes && !squeezes && sets.length = 2) then
        failWith ("tr: extra operand " ++ inQuotes (o.operands.getLast?.getD "")) 1
      else
        let text ← takeAll 0
        if deletes then
          let kept := text.toList.filter fun c => !first.contains c
          say (String.ofList (if squeezes then squeeze second.contains none kept else kept))
          return 0
        else if sets.length = 1 then
          say (String.ofList (squeeze first.contains none text.toList))
          return 0
        else if second.isEmpty then
          failWith "tr: when not truncating set1, string2 must be non-empty" 1
        else
          let size := if o.has 't' then min first.length second.length else first.length
          let last := second.getLast?.getD ' '
          let pairs := (first.take size).zipIdx.map fun (c, i) => (c, second.getD i last)
          let table := pairs.foldl (fun (t : Array Char) (c, d) => t.setIfInBounds c.toNat d)
            (charRange (Char.ofNat 0) (Char.ofNat 255)).toArray
          let mapped := text.toList.map fun c => table.getD c.toNat c
          say (String.ofList (if squeezes then squeeze second.contains none mapped else mapped))
          return 0

/-- Drops or counts repeated neighbouring lines. -/
def uniq (args : List String) : Act Nat :=
  withOptions "uniq" "cdDuif:s:w:z" [("count", 'c'), ("repeated", 'd'),
    ("all-repeated", 'D'), ("unique", 'u'), ("ignore-case", 'i'), ("skip-fields", 'f'),
    ("skip-chars", 's'), ("check-chars", 'w')] 1 args
  fun o => do
    let number (c : Char) : Option Nat := (o.value? c).bind String.toNat?
    let key (line : String) : List Char :=
      let skipField (cs : List Char) : List Char :=
        let blank (c : Char) : Bool := c == ' ' || c == '\t'
        (cs.dropWhile blank).dropWhile fun c => !blank c
      let cs := ((number 'f').getD 0).repeat skipField line.toList
      let cs := cs.drop ((number 's').getD 0)
      let cs := match number 'w' with
        | some n => cs.take n
        | none => cs
      if o.has 'i' then cs.map Char.toLower else cs
    let (found, ok) ← contentsOf (plainComplaint "uniq") (o.operands.take 1)
    if !ok then return 1
    let groups := (textLines (String.join (found.map (·.2)))).foldl (fun groups line =>
      match groups with
      | (first, more) :: rest =>
        if key first == key line then (first, line :: more) :: rest else (line, []) :: groups
      | [] => [(line, [])]) ([] : List (String × List String))
    let shown := String.join (groups.reverse.map fun (line, more) =>
      let n := more.length + 1
      if ((o.has 'd' || o.has 'D') && n = 1) || (o.has 'u' && 1 < n) then ""
      else if o.has 'D' then unlines (line :: more.reverse)
      else if o.has 'c' then padLeft 7 ' ' (toString n) ++ " " ++ line ++ "\n"
      else line ++ "\n")
    match o.operands[1]? with
    | none =>
      say shown
      return 0
    | some file =>
      match (← get).writeFile file shown with
      | .ok m =>
        set m
        return 0
      | .error e => failWith (plainComplaint "uniq" file e) 1

/-- Lines of two sorted texts: with how many of them each is shared. -/
def mergeLines : Nat → List String → List String → List (Nat × String)
  | 0, _, _ => []
  | _, [], bs => bs.map (2, ·)
  | _, as, [] => as.map (1, ·)
  | fuel + 1, a :: as, b :: bs =>
    if a = b then (3, a) :: mergeLines fuel as bs
    else if a < b then (1, a) :: mergeLines fuel as (b :: bs)
    else (2, b) :: mergeLines fuel (a :: as) bs

/-- Compares two sorted files line by line. -/
def comm (args : List String) : Act Nat :=
  withOptions "comm" "123z" [] 1 args fun o => do
    match o.operands with
    | [a, b] =>
      let (found, ok) ← contentsOf (plainComplaint "comm") [a, b]
      match ok, found with
      | true, [(_, x), (_, y)] =>
        let x := textLines x
        let y := textLines y
        let tabs (columns : List Char) : String :=
          String.join ((columns.filter fun c => !o.has c).map fun _ => "\t")
        say (String.join ((mergeLines (x.length + y.length + 1) x y).map fun (n, line) =>
          let (own, before) := match n with
            | 1 => ('1', [])
            | 2 => ('2', ['1'])
            | _ => ('3', ['1', '2'])
          if o.has own then "" else tabs before ++ line ++ "\n"))
        return 0
      | _, _ => return 1
    | _ => failWith "comm: missing operand" 1

end MarkerDoc.Shell.Utility
