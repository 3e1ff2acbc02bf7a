import MarkerDoc.Shell.Utility.Files

/-!
# Programs that take tables together or apart

Joining the lines of two files on a common field, cutting a file into several ones, filling up
tabulators, and the prime factors of numbers.
-/

namespace MarkerDoc.Shell.Utility

/-! ## Joining -/

namespace Join

/-- How two files are joined. -/
structure Plan where
  separator : Option Char := none
  first : Nat := 1
  second : Nat := 1
  /-- The sides whose lines without a partner are shown. -/
  unpaired : List Nat := []
  /-- Whether lines with a partner are shown. -/
  paired : Bool := true

def Plan.fields (p : Plan) (line : String) : List String :=
  match p.separator with
  | some c => Text.splitOn (String.ofList [c]) line
  | none => Text.words line

/-- A line as its key and its other fields. -/
def Plan.keyed (p : Plan) (n : Nat) (line : String) : String × List String :=
  let fs := p.fields line
  (fs.getD (n - 1) "", fs.eraseIdx (n - 1))

def Plan.show (p : Plan) (fields : List String) : String :=
  Text.joinWith (String.ofList [p.separator.getD ' ']) fields ++ "\n"

/-- The joined lines of two lists that are ordered by their keys. -/
def Plan.merge (p : Plan) : Nat → List (String × List String) → List (String × List String) →
    String
  | 0, _, _ => ""
  | fuel + 1, xs, ys =>
    let alone (side : Nat) (x : String × List String) : String :=
      if p.unpaired.contains side then p.show (x.1 :: x.2) else ""
    match xs, ys with
    | [], ys => String.join (ys.map (alone 2))
    | xs, [] => String.join (xs.map (alone 1))
    | x :: xs, y :: ys =>
      if x.1 < y.1 then alone 1 x ++ p.merge fuel xs (y :: ys)
      else if y.1 < x.1 then alone 2 y ++ p.merge fuel (x :: xs) ys
      else
        let left := x :: xs.takeWhile (·.1 == x.1)
        let right := y :: ys.takeWhile (·.1 == x.1)
        let shown := if p.paired then
            String.join (left.flatMap fun a => right.map fun b => p.show (x.1 :: a.2 ++ b.2))
          else ""
        shown ++ p.merge fuel (xs.drop (left.length - 1)) (ys.drop (right.length - 1))

end Join

/-- Joins the lines of two files. -/
def join (args : List String) : Act Nat :=
  withOptions "join" "t:1:2:j:a:v:i" [("ignore-case", 'i')] 1 args fun o => do
    match o.operands with
    | [a, b] =>
      let (found, ok) ← contentsOf (plainComplaint "join") [a, b]
      match found with
      | [(_, a), (_, b)] =>
        let number (c : Char) : Nat := (((o.value? c).orElse fun _ => o.value? 'j').bind
          String.toNat?).getD 1
        let plan : Join.Plan :=
          { separator := (o.value? 't').bind (·.toList.head?), first := number '1'
            second := number '2', paired := !o.has 'v'
            unpaired := (o.values 'a' ++ o.values 'v').filterMap String.toNat? }
        let left := (textLines a).map (plan.keyed plan.first)
        let right := (textLines b).map (plan.keyed plan.second)
        say (plan.merge (left.length + right.length + 1) left right)
        return if ok then 0 else 1
      | _ => return 1
    | _ => failWith "join: missing operand" 1

/-! ## Splitting -/

/-- The letters behind the names of the parts, in order. -/
def partName (digits : Bool) (width : Nat) : Nat → String
  | n =>
    let base := if digits then 10 else 26
    let letter (k : Nat) : Char := Char.ofNat ((if digits then 0x30 else 0x61) + k)
    let places := (List.range width).map fun i => letter (n / Nat.pow base i % base)
    String.ofList places.reverse

/-- Cuts a list into pieces of a size. -/
def piecesOf {α : Type} (size : Nat) : Nat → List α → List (List α)
  | 0, _ => []
  | _, [] => []
  | fuel + 1, xs => xs.take size :: piecesOf size fuel (xs.drop size)

/-- Cuts a file into several ones. -/
def split (args : List String) : Act Nat :=
  withOptions "split" "l:b:a:d" [("lines", 'l'), ("bytes", 'b'), ("suffix-length", 'a'),
    ("numeric-suffixes", 'd')] 1 args fun o => do
    let lead := o.operands.getD 1 "x"
    let width := ((o.value? 'a').bind String.toNat?).getD 2
    let (found, ok) ← contentsOf (fun file e => "split: cannot open " ++ inQuotes file ++
      " for reading: " ++ reason e) (o.operands.take 1)
    for (_, text) in found do
      let pieces := match (o.value? 'b').bind sizeArgument? with
        | some n => (piecesOf (max n 1) (text.length + 1) text.toList).map String.ofList
        | none =>
          let n := ((o.value? 'l').bind String.toNat?).getD 1000
          let ended := text.toList.getLast? == some '\n'
          let lines := textLines text
          let marked := lines.zipIdx.map fun (line, i) =>
            if i + 1 = lines.length && !ended then line else line ++ "\n"
          (piecesOf (max n 1) (lines.length + 1) marked).map String.join
      for (piece, i) in pieces.zipIdx do
        match (← get).writeFile (lead ++ partName (o.has 'd') width i) piece with
        | .ok m => set m
        | .error _ => pure ()
    return if ok then 0 else 1

/-! ## Tabulators -/

/-- A line whose tabulators are filled up with blanks. -/
def expandTabs (width : Nat) : Nat → List Char → List Char
  | _, [] => []
  | column, '\t' :: cs =>
    let next := (column / width + 1) * width
    List.replicate (next - column) ' ' ++ expandTabs width next cs
  | _, '\n' :: cs => '\n' :: expandTabs width 0 cs
  | column, c :: cs => c :: expandTabs width (column + 1) cs

/-- Fills up tabulators with blanks. -/
def expand (args : List String) : Act Nat :=
  withOptions "expand" "t:i" [("tabs", 't'), ("initial", 'i')] 1 args fun o => do
    let width := ((o.value? 't').bind String.toNat?).getD 8
    let (found, ok) ← contentsOf (plainComplaint "expand") o.operands
    for (_, text) in found do
      say (String.ofList (expandTabs (max width 1) 0 text.toList))
    return if ok then 0 else 1

/-- A line whose blanks are replaced by tabulators where these end; `blanks` is the number of blanks
that were passed.  Unless `everywhere` holds, only the blanks in front are replaced. -/
def unexpandTabs (width : Nat) (everywhere : Bool) : Nat → Nat → List Char → List Char
  | _, blanks, [] => List.replicate blanks ' '
  | column, blanks, ' ' :: cs =>
    if (column + 1) % width = 0 then
      (if everywhere && blanks = 0 && cs.head? != some ' ' && cs.head? != some '\t' then ' '
        else '\t') :: unexpandTabs width everywhere (column + 1) 0 cs
    else unexpandTabs width everywhere (column + 1) (blanks + 1) cs
  | column, _, '\t' :: cs =>
    '\t' :: unexpandTabs width everywhere ((column / width + 1) * width) 0 cs
  | column, blanks, c :: cs =>
    List.replicate blanks ' ' ++ c ::
      if everywhere then unexpandTabs width everywhere (column + 1) 0 cs else cs

/-- Replaces blanks by tabulators. -/
def unexpand (args : List String) : Act Nat :=
  withOptions "unexpand" "at:" [("all", 'a'), ("tabs", 't'), ("first-only", 'f')] 1 args
  fun o => do
    let width := ((o.value? 't').bind String.toNat?).getD 8
    let everywhere := o.has 'a' || o.has 't'
    let (found, ok) ← contentsOf (plainComplaint "unexpand") o.operands
    for (_, text) in found do
      say (String.join ((brokenLines text).map fun line =>
        match line.toList.getLast? with
        | some '\n' => String.ofList
            (unexpandTabs (max width 1) everywhere 0 0 line.toList.dropLast) ++ "\n"
        | _ => String.ofList (unexpandTabs (max width 1) everywhere 0 0 line.toList)))
    return if ok then 0 else 1

/-! ## Orders -/

/-- Names in an order in which the first of a pair comes before the second.  `waiting` holds the
names that nothing else has to come before, and `counts` how many names have to come before others;
nothing more is found once there is a circle. -/
def orderFrom (pairs : List (String × String)) : Nat → List String → List (String × Nat) →
    List String
  | 0, _, _ => []
  | _, [], _ => []
  | fuel + 1, name :: waiting, counts =>
    let after := (pairs.filter (·.1 == name)).reverse.map (·.2)
    let (waiting, counts) := after.foldl (fun (waiting, counts) s =>
      let left := ((counts.find? (·.1 == s)).map (·.2)).getD 0 - 1
      (if left = 0 then waiting ++ [s] else waiting,
        counts.map fun (t, n) => if t == s then (t, left) else (t, n))) (waiting, counts)
    name :: orderFrom pairs fuel waiting counts

/-- Puts names in order. -/
def tsort (args : List String) : Act Nat := do
  let (found, ok) ← contentsOf (plainComplaint "tsort") (args.take 1)
  if !ok then return 1
  let words := found.flatMap fun (_, text) => Text.words text
  if words.length % 2 = 1 then
    return ← failWith ("tsort: " ++ args.headD "-" ++ ": input contains an odd number of tokens") 1
  let pairs := (piecesOf 2 (words.length + 1) words).filterMap fun
    | [a, b] => some (a, b)
    | _ => none
  let names := words.eraseDups.mergeSort fun a b => a ≤ b
  let pairs := pairs.filter fun (a, b) => a != b
  let counts := names.map fun s => (s, (pairs.filter (·.2 == s)).length)
  let free := (counts.filter (·.2 == 0)).map (·.1)
  let order := orderFrom pairs (names.length + 1) free counts
  say (unlines order)
  if order.length < names.length then
    let rest := names.filter fun s => !order.contains s
    complain ("tsort: " ++ args.headD "-" ++ ": input contains a loop:")
    for s in rest do
      complain ("tsort: " ++ s)
    say (unlines rest)
    return 1
  else return 0

/-- Shows lines in any order, here in the given one. -/
def shuf (args : List String) : Act Nat :=
  withOptions "shuf" "n:i:ero:z" [("head-count", 'n'), ("input-range", 'i'), ("echo", 'e'),
    ("repeat", 'r'), ("output", 'o')] 1 args fun o => do
    let lines ← match o.value? 'i' with
      | some range =>
        match (Text.splitOn "-" range).map String.toNat? with
        | [some low, some high] =>
          pure (some ((List.range (high + 1 - low)).map fun i => toString (low + i)))
        | _ => pure none
      | none =>
        if o.has 'e' then pure (some o.operands)
        else do
          let (found, ok) ← contentsOf (plainComplaint "shuf") (o.operands.take 1)
          pure (if ok then some (found.flatMap fun (_, text) => textLines text) else none)
    match lines with
    | none => return 1
    | some lines =>
      let shown := match (o.value? 'n').bind String.toNat? with
        | some n => lines.take n
        | none => lines
      match o.value? 'o' with
      | none =>
        say (unlines shown)
        return 0
      | some file =>
        match (← get).writeFile file (unlines shown) with
        | .ok m =>
          set m
          return 0
        | .error e => failWith (plainComplaint "shuf" file e) 1

/-! ## Factors -/

/-- The prime factors of a number that are at least as large as a candidate. -/
def factorsFrom : Nat → Nat → Nat → List Nat
  | 0, _, _ => []
  | fuel + 1, n, d =>
    if n ≤ 1 then []
    else if n < d * d then [n]
    else if n % d = 0 then d :: factorsFrom fuel (n / d) d
    else factorsFrom fuel n (d + 1)

/-- Shows the prime factors of numbers. -/
def factor (args : List String) : Act Nat := do
  let numbers ← if args.isEmpty then do pure (Text.words (← takeAll 0)) else pure args
  let mut status := 0
  for s in numbers do
    match s.toNat? with
    | some n =>
      say (toString n ++ ":" ++
        String.join ((factorsFrom (n + 1) n 2).map fun p => " " ++ toString p) ++ "\n")
    | none => status ← failWith ("factor: " ++ inQuotes s ++ " is not a valid positive integer") 1
  return status

end MarkerDoc.Shell.Utility
