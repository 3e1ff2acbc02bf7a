import MarkerDoc.Shell.Utility.Lines

/-!
# Sorting lines

Lines are compared by keys, which are parts of them, and at last as a whole.
-/

namespace MarkerDoc.Shell.Utility

/-- A part of a line by which it is sorted, and how. -/
structure SortKey where
  field : Nat := 1
  char : Nat := 1
  /-- The last field, and the last character in it, where zero stands for its end. -/
  last : Option (Nat × Nat) := none
  flags : List Char := []

namespace SortKey

def isBlank (c : Char) : Bool := c == ' ' || c == '\t'

/-- What follows a number of fields. -/
def afterFields (separator : Option Char) : Nat → List Char → List Char
  | 0, cs => cs
  | n + 1, cs =>
    match separator with
    | some s => afterFields separator n ((cs.dropWhile (· != s)).drop 1)
    | none => afterFields separator n ((cs.dropWhile isBlank).dropWhile fun c => !isBlank c)

/-- What follows the last character of a field. -/
def afterField (separator : Option Char) (n : Nat) (cs : List Char) : List Char :=
  match separator, n with
  | some s, n + 1 => (afterFields separator n cs).dropWhile (· != s)
  | _, n => afterFields separator n cs

/-- The part of a line that a key stands for. -/
def part (k : SortKey) (separator : Option Char) (line : String) : String :=
  let cs := line.toList
  let skip (cs : List Char) : List Char := if k.flags.contains 'b' then cs.dropWhile isBlank else cs
  let front := (skip (afterFields separator (k.field - 1) cs)).drop (k.char - 1)
  let back := match k.last with
    | none => []
    | some (field, 0) => afterField separator field cs
    | some (field, char) => (skip (afterFields separator (field - 1) cs)).drop char
  String.ofList (front.take (front.length - back.length))

/-- The number in front of a text as a whole number of small units. -/
def numeric (s : String) : Int :=
  let cs := s.toList.dropWhile isBlank
  let (negative, cs) := match cs with
    | '-' :: rest => (true, rest)
    | cs => (false, cs)
  let (whole, rest) := Decimal.digitsOf cs
  let places := match rest with
    | '.' :: rest => (rest.takeWhile Char.isDigit).take 30
    | _ => []
  let digits := whole ++ places ++ List.replicate (30 - places.length) '0'
  let n : Int := (String.ofList digits).toNat?.getD 0
  if negative then -n else n

/-- The unit behind a number. -/
def unitRank (s : String) : Nat :=
  let cs := (s.toList.dropWhile isBlank).dropWhile fun c => c == '-' || c.isDigit || c == '.'
  match cs with
  | c :: _ => ("KMGTPEZY".toList.idxOf? c.toUpper).map (· + 1) |>.getD 0
  | [] => 0

/-- The place of a month in the year. -/
def month (s : String) : Nat :=
  let name := ((s.toList.dropWhile isBlank).take 3).map Char.toUpper
  let months := ["JAN", "FEB", "MAR", "APR", "MAY", "JUN", "JUL", "AUG", "SEP", "OCT", "NOV", "DEC"]
  (months.idxOf? (String.ofList name)).map (· + 1) |>.getD 0

/-- Cuts a text into numbers and what stands between them. -/
def versionParts : Nat → List Char → List (String × Nat)
  | 0, _ => []
  | _, [] => []
  | fuel + 1, cs =>
    let text := cs.takeWhile fun c => !c.isDigit
    let (digits, rest) := Decimal.digitsOf (cs.drop text.length)
    (String.ofList text, (String.ofList digits).toNat?.getD 0) :: versionParts fuel rest

/-- Compares lists of numbers with texts in front of them. -/
def compareVersions : List (String × Nat) → List (String × Nat) → Ordering
  | [], [] => .eq
  | [], _ => .lt
  | _, [] => .gt
  | (s, m) :: as, (t, n) :: bs =>
    (compare s t).then ((compare m n).then (compareVersions as bs))

/-- Compares two keys. -/
def compareParts (flags : List Char) (a b : String) : Ordering :=
  if flags.contains 'n' then compare (numeric a) (numeric b)
  else if flags.contains 'g' then
    let value (s : String) : Float :=
      ((Decimal.leading? (s.toList.dropWhile isBlank)).map (·.1)).getD 0.0
    if value a < value b then .lt else if value b < value a then .gt else .eq
  else if flags.contains 'h' then
    (compare (unitRank a) (unitRank b)).then (compare (numeric a) (numeric b))
  else if flags.contains 'M' then compare (month a) (month b)
  else if flags.contains 'V' then
    compareVersions (versionParts (a.length + 1) a.toList) (versionParts (b.length + 1) b.toList)
  else
    let view (s : String) : String :=
      let cs := if flags.contains 'd' then s.toList.filter fun c => c.isAlphanum || isBlank c
        else s.toList
      String.ofList (if flags.contains 'f' then cs.map Char.toUpper else cs)
    compare (view a) (view b)

/-- Reads one end of a key. -/
def readEnd? (cs : List Char) : Option (Nat × Option Nat × List Char) := do
  let (digits, rest) := Decimal.digitsOf cs
  let field ← (String.ofList digits).toNat?
  match rest with
  | '.' :: rest =>
    let (digits, rest) := Decimal.digitsOf rest
    let char ← (String.ofList digits).toNat?
    some (field, some char, rest)
  | rest => some (field, none, rest)

/-- Reads a key. -/
def read? (s : String) : Option SortKey := do
  let (field, char, rest) ← readEnd? s.toList
  let flags := rest.takeWhile Char.isAlpha
  match rest.drop flags.length with
  | [] => some { field, char := char.getD 1, flags }
  | ',' :: rest =>
    let (lastField, lastChar, rest) ← readEnd? rest
    let more := rest.takeWhile Char.isAlpha
    if more.length = rest.length then
      some { field, char := char.getD 1, last := some (lastField, lastChar.getD 0)
             flags := flags ++ more }
    else none
  | _ => none

end SortKey

/-- Sorts lines. -/
def sort (args : List String) : Act Nat :=
  withOptions "sort" "rnufbdighMVsck:t:o:mCzS:T:" [("reverse", 'r'), ("numeric-sort", 'n'),
    ("unique", 'u'), ("ignore-case", 'f'), ("ignore-leading-blanks", 'b'), ("key", 'k'),
    ("field-separator", 't'), ("output", 'o'), ("stable", 's'), ("check", 'c'),
    ("general-numeric-sort", 'g'), ("human-numeric-sort", 'h'), ("version-sort", 'V'),
    ("month-sort", 'M'), ("dictionary-order", 'd'), ("merge", 'm')] 2 args fun o => do
    let separator := (o.value? 't').bind fun s =>
      if s = "\\0" then some (Char.ofNat 0) else s.toList.head?
    let globals := "nfbdighMVr".toList.filter o.has
    match (o.values 'k').mapM SortKey.read? with
    | none => failWith "sort: invalid number at field start" 2
    | some keys =>
      let keys := if keys.isEmpty then [{ flags := globals : SortKey }]
        else keys.map fun k => if k.flags.isEmpty then { k with flags := globals } else k
      let turn (flags : List Char) (order : Ordering) : Ordering :=
        if flags.contains 'r' then order.swap else order
      let byKeys (a b : String) : Ordering :=
        keys.foldl (fun order k => order.then (turn k.flags (SortKey.compareParts k.flags
          (k.part separator a) (k.part separator b)))) .eq
      let order (a b : String) : Ordering :=
        if o.has 's' || o.has 'u' then byKeys a b
        else (byKeys a b).then (turn (if o.has 'r' then ['r'] else []) (compare a b))
      let (found, ok) ← contentsOf
        (fun file e => match e with
          | .isADirectory => "sort: read failed: " ++ shownName file ++ ": " ++ reason e
          | _ => "sort: cannot read: " ++ shownName file ++ ": " ++ reason e) o.operands
      if !ok then return 2
      let lines := (found.map fun (_, text) => textLines text).flatten
      if o.has 'c' || o.has 'C' then
        let disorder := (lines.zip lines.tail).zipIdx.find? fun ((a, b), _) =>
          order a b == .gt || (o.has 'u' && order a b == .eq)
        match disorder with
        | none => return 0
        | some ((_, b), i) =>
          if o.has 'c' then
            complain ("sort: " ++ o.operands.headD "-" ++ ":" ++ toString (i + 2) ++
              ": disorder: " ++ b)
          return 1
      let sorted := lines.mergeSort fun a b => order a b != .gt
      let kept := if o.has 'u' then
          (sorted.foldl (fun kept line =>
            match kept with
            | last :: _ => if order last line == .eq then kept else line :: kept
            | [] => [line]) []).reverse
        else sorted
      match o.value? 'o' with
      | none =>
        say (unlines kept)
        return 0
      | some file =>
        match (← get).writeFile file (unlines kept) with
        | .ok m =>
          set m
          return 0
        | .error e => failWith ("sort: open failed: " ++ shownName file ++ ": " ++ reason e) 2

end MarkerDoc.Shell.Utility
