import MarkerDoc.Shell.Regex
import MarkerDoc.Shell.Utility.Files

/-!
# The stream editor

A list of commands is carried out for every line of the input.  A line is put into a space where
the commands change it; what is left there at the end is printed.  A second space keeps text from
line to line.
-/

namespace MarkerDoc.Shell.Utility

namespace Sed

/-- A line, or lines, that a command is for. -/
inductive Address where
  | line (n : Nat)
  | last
  /-- Every so many lines from one on. -/
  | stride (first step : Nat)
  /-- Lines that an expression matches; without one, the expression that was used last. -/
  | matching (r : Option Regex)
deriving DecidableEq

/-- Where a range of lines ends. -/
inductive RangeEnd where
  | address (a : Address)
  /-- So many lines further down. -/
  | plus (n : Nat)
  /-- The next line further down whose number is a multiple. -/
  | multiple (n : Nat)
deriving DecidableEq

/-- The lines that a command is for. -/
structure Selection where
  first : Option Address := none
  last : Option RangeEnd := none
  negated : Bool := false
deriving DecidableEq

/-- A part of the text that takes the place of a match. -/
inductive Replacement where
  | text (s : String)
  | group (n : Nat)
  /-- A change of case: `U`, `L`, `u`, `l`, or `E` for its end. -/
  | casing (c : Char)
deriving DecidableEq

inductive Action where
  | nothing
  /-- Opens a block that ends at a position in the list of commands. -/
  | block (stop : Nat)
  | close
  | delete
  | deleteFirst
  | print
  | printFirst
  | lineNumber
  | append (text : String)
  | insert (text : String)
  | change (text : String)
  | label (name : String)
  /-- Goes on at a label: always, if something was replaced, or if nothing was. -/
  | branch (kind : Char) (name : String)
  | next
  | nextAppend
  | get
  | getAppend
  | hold
  | holdAppend
  | exchange
  | quit (silent : Bool) (status : Nat)
  | readFile (path : String)
  /-- Takes the next line of a file. -/
  | readLine (path : String)
  | writeFile (path : String)
  | writeFirst (path : String)
  | substitute (r : Option Regex) (new : List Replacement) (nth : Nat) (all print : Bool)
      (file : Option String)
  | transliterate (pairs : List (Char × Char))
  | list
  | fileName
  | clear
deriving DecidableEq

structure Command where
  selection : Selection
  action : Action
deriving DecidableEq

/-! ## Reading -/

/-- What is left to read. -/
structure Source where
  rest : List Char

abbrev Reader := StateT Source Option

/-- The value of up to so many digits in front, if there are any, and what follows them. -/
def codeOf (base size : Nat) (cs : List Char) : Option (Char × List Char) :=
  let digits := (cs.takeWhile fun c => (digitValue? c).any (· < base)).take size
  if digits.isEmpty then none
  else
    let value := digits.foldl (fun n c => base * n + (digitValue? c).getD 0) 0
    some (Char.ofNat (value % 256), cs.drop digits.length)

/-- The character that an escape stands for, read after its backslash, and what follows it. -/
def escape? : List Char → Option (Char × List Char)
  | 'n' :: rest => some ('\n', rest)
  | 't' :: rest => some ('\t', rest)
  | 'r' :: rest => some ('\r', rest)
  | 'f' :: rest => some (Char.ofNat 12, rest)
  | 'v' :: rest => some (Char.ofNat 11, rest)
  | 'a' :: rest => some (Char.ofNat 7, rest)
  | 'd' :: rest => codeOf 10 3 rest
  | 'o' :: rest => codeOf 8 3 rest
  | 'x' :: rest => codeOf 16 2 rest
  | 'c' :: c :: rest => some (Char.ofNat (c.toUpper.toNat ^^^ 64), rest)
  | _ => none

/-- Replaces escapes, and leaves all other backslashes. -/
def plainEscapes : Nat → List Char → List Char
  | 0, cs => cs
  | _, [] => []
  | fuel + 1, '\\' :: rest =>
    match escape? rest, rest with
    | some (c, rest), _ => c :: plainEscapes fuel rest
    | none, c :: rest => '\\' :: c :: plainEscapes fuel rest
    | none, [] => ['\\']
  | fuel + 1, c :: rest => c :: plainEscapes fuel rest

/-- The text up to a delimiter, where a backslash keeps the delimiter and sets keep everything. -/
def delimited (delimiter : Char) (keepSets : Bool) : Nat → Bool → List Char →
    Option (List Char × List Char)
  | 0, _, _ => none
  | _, _, [] => none
  | fuel + 1, inSet, c :: cs =>
    let push (front rest : List Char) (inSet : Bool) : Option (List Char × List Char) :=
      (delimited delimiter keepSets fuel inSet rest).map fun (a, b) => (front ++ a, b)
    if inSet then push [c] cs (c != ']')
    else if c = delimiter then some ([], cs)
    else if c = '\\' then
      match cs with
      | d :: rest =>
        if d = delimiter && d != '\\' then push [d] rest false
        else push [c, d] rest false
      | [] => none
    else if c = '[' && keepSets then
      match cs with
      | '^' :: ']' :: rest => push ['[', '^', ']'] rest true
      | ']' :: rest => push ['[', ']'] rest true
      | '^' :: rest => push ['[', '^'] rest true
      | rest => push ['['] rest true
    else push [c] cs false

def readDelimited (delimiter : Char) (keepSets : Bool) : Reader (List Char) := do
  let rest := (← get).rest
  match delimited delimiter keepSets (rest.length + 1) false rest with
  | some (text, rest) =>
    set (Source.mk rest)
    return text
  | none => failure

/-- The expression for a pattern, or none if it is empty. -/
def expression? (extended fold : Bool) (pattern : List Char) : Option (Option Regex) :=
  if pattern.isEmpty then some none
  else (Regex.read? { extended } (String.ofList (plainEscapes pattern.length pattern))).map fun r =>
    some (if fold then r.foldCase else r)

def takeWhile (p : Char → Bool) : Reader (List Char) := do
  let found := (← get).rest.takeWhile p
  modify fun s => ⟨s.rest.drop found.length⟩
  return found

def blanks : Reader Unit := do
  let _ ← takeWhile fun c => c == ' ' || c == '\t'

def spaces : Reader Unit := do
  let _ ← takeWhile fun c => c == ' ' || c == '\t' || c == '\n' || c == ';'

def number : Reader Nat := do
  let digits ← takeWhile Char.isDigit
  match (String.ofList digits).toNat? with
  | some n => return n
  | none => failure

def next? : Reader (Option Char) := do
  return (← get).rest.head?

def skipOne : Reader Unit :=
  modify fun s => ⟨s.rest.drop 1⟩

/-- An address, if there is one. -/
def readAddress (extended : Bool) : Reader (Option Address) := do
  match ← next? with
  | none => return none
  | some c =>
    if c.isDigit then
      let n ← number
      if (← next?) = some '~' then
        skipOne
        return some (.stride n (← number))
      else return some (.line n)
    else if c = '$' then
      skipOne
      return some .last
    else if c = '/' || c = '\\' then
      skipOne
      let delimiter ← if c = '\\' then do
          match ← next? with
          | some d => skipOne; pure d
          | none => failure
        else pure '/'
      let pattern ← readDelimited delimiter true
      let flags ← takeWhile fun c => c == 'I' || c == 'M'
      match expression? extended (flags.contains 'I') pattern with
      | some r => return some (.matching r)
      | none => failure
    else return none

def readRangeEnd (extended : Bool) : Reader RangeEnd := do
  match ← next? with
  | some '+' => skipOne; return .plus (← number)
  | some '~' => skipOne; return .multiple (← number)
  | _ =>
    match ← readAddress extended with
    | some a => return .address a
    | none => failure

def readSelection (extended : Bool) : Reader Selection := do
  let first ← readAddress extended
  blanks
  let last ← if first.isSome && (← next?) = some ',' then do
      skipOne
      blanks
      pure (some (← readRangeEnd extended))
    else pure none
  blanks
  let marks ← takeWhile fun c => c == '!' || c == ' '
  return { first, last, negated := marks.contains '!' }

/-- The lines of a text to be put in, where a backslash at its end continues a line. -/
def insertedText : Nat → List Char → List Char × List Char
  | 0, cs => ([], cs)
  | _, [] => ([], [])
  | fuel + 1, c :: cs =>
    if c = '\\' then
      match escape? cs, cs with
      | some (d, rest), _ | none, d :: rest =>
        let (a, b) := insertedText fuel rest
        (d :: a, b)
      | none, [] => ([], [])
    else if c = '\n' then ([], cs)
    else
      let (a, b) := insertedText fuel cs
      (c :: a, b)

/-- The text after a command that puts it in. -/
def readInserted : Reader String := do
  blanks
  let rest := (← get).rest
  if rest.head?.all (· == '\n') then failure
  let (lead, rest) := match rest with
    | '\\' :: more =>
      let more' := more.dropWhile fun c => c == ' ' || c == '\t'
      match more', more with
      | '\n' :: after, _ => ([], after)
      | _, c :: rest => if c = '\\' then ([], more) else ([c], rest)
      | _, [] => ([], [])
    | rest => ([], rest)
  let (text, after) := insertedText (rest.length + 1) rest
  set (Source.mk after)
  return String.ofList (lead ++ text) ++ "\n"

/-- The text that takes the place of a match. -/
def replacements : Nat → List Char → List Replacement
  | 0, _ => []
  | _, [] => []
  | fuel + 1, c :: cs =>
    let push (r : Replacement) (rest : List Char) : List Replacement := r :: replacements fuel rest
    if c = '&' then push (.group 0) cs
    else if c = '\\' then
      match cs with
      | d :: rest =>
        if d.isDigit then push (.group (d.toNat - 0x30)) rest
        else if "ULulE".toList.contains d then push (.casing d) rest
        else
          match escape? cs with
          | some (e, rest) => push (.text (String.ofList [e])) rest
          | none => push (.text (String.ofList [d])) rest
      | [] => []
    else push (.text (String.ofList [c])) cs

/-- The characters of one side of a transliteration. -/
def translitChars : List Char → List Char
  | '\\' :: c :: rest =>
    (match c with
      | 'n' => '\n'
      | 't' => '\t'
      | c => c) :: translitChars rest
  | c :: rest => c :: translitChars rest
  | [] => []

/-- The name of a label or file up to the end of the line. -/
def readName (stopAtSemicolon : Bool) : Reader String := do
  blanks
  let name ← takeWhile fun c => c != '\n' && !(stopAtSemicolon && (c == ';' || c == rightBrace))
  return Text.trim (String.ofList name)

def readFileName : Reader String := do
  let name ← readName false
  if name = "" then failure else return name

/-- An optional number behind a command. -/
def readStatus : Reader Nat := do
  blanks
  if (← next?).any Char.isDigit then number else return 0

def readSubstitution (extended : Bool) : Reader Action := do
  match ← next? with
  | none => failure
  | some delimiter =>
    skipOne
    let pattern ← readDelimited delimiter true
    let new ← readDelimited delimiter false
    let flags ← takeWhile fun c => c.isDigit || "gpiIemM".toList.contains c
    let numbers := (flags.splitBy fun a b => a.isDigit && b.isDigit).filter fun run =>
      run.any Char.isDigit
    if 1 < numbers.length || numbers.any fun run => run.all (· == '0') then failure
    if 1 < flags.count 'g' || 1 < flags.count 'p' then failure
    let file ← if (← next?) = some 'w' then do
        skipOne
        pure (some (← readFileName))
      else pure none
    let fold := flags.contains 'i' || flags.contains 'I'
    match expression? extended fold pattern with
    | none => failure
    | some r =>
      let new := replacements (new.length + 1) new
      let isBad : Replacement → Bool
        | .group n => r.any fun r => r.lastGroup < n
        | _ => false
      if new.any isBad then failure
      let nth := ((String.ofList (flags.filter Char.isDigit)).toNat?).getD 1
      return .substitute r new nth (flags.contains 'g')
        (flags.contains 'p') file

def readAction (extended : Bool) (c : Char) : Reader Action := do
  match c with
  | '=' => return .lineNumber
  | 'd' => return .delete
  | 'D' => return .deleteFirst
  | 'p' => return .print
  | 'P' => return .printFirst
  | 'n' => return .next
  | 'N' => return .nextAppend
  | 'g' => return .get
  | 'G' => return .getAppend
  | 'h' => return .hold
  | 'H' => return .holdAppend
  | 'x' => return .exchange
  | 'l' => return .list
  | 'F' => return .fileName
  | 'z' => return .clear
  | 'q' => return .quit false (← readStatus)
  | 'Q' => return .quit true (← readStatus)
  | 'a' => return .append (← readInserted)
  | 'i' => return .insert (← readInserted)
  | 'c' => return .change (← readInserted)
  | 'r' => return .readFile (← readFileName)
  | 'R' => return .readLine (← readFileName)
  | 'w' => return .writeFile (← readFileName)
  | 'W' => return .writeFirst (← readFileName)
  | ':' => return .label (← readName true)
  | 'b' | 't' | 'T' => return .branch c (← readName true)
  | 's' => readSubstitution extended
  | 'y' =>
    match ← next? with
    | none => failure
    | some delimiter =>
      skipOne
      let old := translitChars (← readDelimited delimiter false)
      let new := translitChars (← readDelimited delimiter false)
      if old.length = new.length then return .transliterate (old.zip new) else failure
  | _ => failure

/-- Whether a command takes the text up to the end of its line. -/
def takesText : Action → Bool
  | .append _ | .insert _ | .change _ => true
  | _ => false

/-- Whether a command may have its addresses. -/
def allows (sel : Selection) : Action → Bool
  | .label _ => sel.first.isNone
  | .quit .. => sel.last.isNone
  | _ =>
    match sel.first, sel.last with
    | some (.line 0), some (.address (.matching _)) => true
    | some (.line 0), _ => false
    | _, _ => true

/-- Reads commands; `opened` holds the positions of blocks that are still open. -/
def readCommands (extended : Bool) : Nat → List Nat → Array Command → Reader (Array Command)
  | 0, _, _ => failure
  | fuel + 1, opened, done => do
    spaces
    match ← next? with
    | none => if opened.isEmpty then return done else failure
    | some '#' =>
      let _ ← takeWhile (· != '\n')
      readCommands extended fuel opened done
    | some c =>
      if c = rightBrace then
        skipOne
        match opened with
        | [] => failure
        | at_ :: opened =>
          let old := done.getD at_ ⟨{}, .nothing⟩
          let done := done.setIfInBounds at_ { old with action := .block done.size }
          readCommands extended fuel opened (done.push ⟨{}, .close⟩)
      else
        let selection ← readSelection extended
        match ← next? with
        | none => failure
        | some c =>
          skipOne
          if c = leftBrace then
            readCommands extended fuel (done.size :: opened) (done.push ⟨selection, .block 0⟩)
          else
            let action ← readAction extended c
            blanks
            if !allows selection action then failure
            let closes (c : Char) : Bool := c == '\n' || c == ';' || c == '#' || c == rightBrace
            if !takesText action && (← next?).any fun c => !closes c then failure
            readCommands extended fuel opened (done.push ⟨selection, action⟩)

def read? (extended : Bool) (script : String) : Option (Array Command) :=
  ((readCommands extended (2 * script.length + 4) [] #[]).run ⟨script.toList⟩).map (·.1)

/-! ## Running -/

/-- A line to come. -/
structure InputLine where
  text : String
  /-- Whether it has a line break. -/
  ended : Bool := true
  /-- Whether counting of lines starts anew with it. -/
  isFirst : Bool := false
  /-- Whether it counts as the last one. -/
  isLast : Bool := false
  /-- The name of its file. -/
  name : String := "-"

/-- How far a range has come. -/
inductive Progress where
  /-- It goes on up to a line by number. -/
  | upTo (line : Nat)
  /-- It goes on up to a line that is at the address of its end. -/
  | upToMatch
  /-- It does not start again. -/
  | over
deriving DecidableEq

structure State where
  input : List InputLine := []
  name : String := "-"
  line : Nat := 0
  space : String := ""
  /-- Whether the line in the space had a line break. -/
  ended : Bool := true
  kept : String := ""
  keptEnded : Bool := true
  output : String := ""
  /-- Whether the last line of the output lacks its line break. -/
  unfinished : Bool := false
  isLast : Bool := false
  queue : List String := []
  replaced : Bool := false
  lastRegex : Option Regex := none
  /-- How far the ranges of commands have come. -/
  ranges : List (Nat × Progress) := []
  /-- The ranges that go on from before the first line. -/
  early : List (Nat × Progress) := []
  /-- The texts of files that are written, and whether their last lines lack line breaks. -/
  files : List (String × String × Bool) := []
  /-- The lines that are left of files that are read line by line. -/
  sources : List (String × List String) := []
  quiet : Bool := false
  quit : Option Nat := none

namespace State

/-- Adds text to the output. -/
def emit (s : State) (text : String) (finished : Bool) : State :=
  let gap := if s.unfinished then "\n" else ""
  { s with output := s.output ++ gap ++ text ++ (if finished then "\n" else "")
           unfinished := !finished }

/-- Adds text that has its line breaks to the output. -/
def emitLines (s : State) (text : String) : State :=
  let gap := if s.unfinished then "\n" else ""
  { s with output := s.output ++ gap ++ text, unfinished := false }

def printSpace (s : State) : State :=
  s.emit s.space s.ended

/-- Adds what was put off to the end of the line. -/
def flush (s : State) : State :=
  s.queue.foldl (fun s text => if text.isEmpty then s else s.emitLines text) { s with queue := [] }

/-- Ends the round for a line. -/
def endRound (s : State) : State :=
  (if s.quiet then s else s.printSpace).flush

/-- Takes the next line. -/
def take? (s : State) : Option State :=
  match s.input with
  | next :: rest =>
    let s := if next.isFirst then
        { s with line := 0, kept := "", keptEnded := true, ranges := s.early, sources := [] }
      else s
    some { s with
      input := rest, space := next.text, ended := next.ended, line := s.line + 1
      isLast := next.isLast, name := next.name, replaced := false }
  | [] => none

end State

/-- Whether a line is at an address; the state remembers the expression that was used. -/
def Address.holds (a : Address) (s : State) : Bool × State :=
  match a with
  | .line n => (s.line == n, s)
  | .last => (s.isLast, s)
  | .stride first step =>
    (if step = 0 then s.line == first else first ≤ s.line && (s.line - first) % step == 0, s)
  | .matching r =>
    match r.or s.lastRegex with
    | some r => (r.occursIn s.space, { s with lastRegex := some r })
    | none => (false, s)

/-- Whether a command with a range is for the current line.  A range that starts at a line by number
starts only once, and also where that line was passed. -/
def rangeHolds (first : Address) (last : RangeEnd) (index : Nat) (s : State) : Bool × State :=
  let others := s.ranges.filter (·.1 != index)
  let keep (s : State) (p : Progress) : State := { s with ranges := (index, p) :: others }
  let close (s : State) : State := match first with
    | .line _ => keep s .over
    | _ => { s with ranges := others }
  let openTo (n : Nat) : Bool × State :=
    (true, if n ≤ s.line then close s else keep s (.upTo n))
  let progress : Option Progress := (s.ranges.find? (·.1 == index)).map (·.2)
  match progress, last with
  | some .over, _ => (false, s)
  | some (.upTo n), .address _ => (s.line ≤ n, if n ≤ s.line then close s else s)
  | some (.upTo n), _ => (true, if n ≤ s.line then close s else s)
  | some .upToMatch, .address a =>
    let (hit, s) := a.holds s
    (true, if hit then close s else s)
  | some .upToMatch, _ => (true, close s)
  | none, _ =>
    let (hit, s') := match first with
      | .line n => (n ≤ s.line, s)
      | a => a.holds s
    if !hit then (false, s')
    else
      match last with
      | .plus n => openTo (s.line + n)
      | .multiple n => openTo (if n = 0 then s.line else (s.line / n + 1) * n)
      | .address (.line n) =>
        let isFirst := match first with
          | .line k => k == s.line
          | _ => true
        if n < s.line then (isFirst, close s') else openTo n
      | .address .last => (true, if s.isLast then close s' else keep s' .upToMatch)
      | .address _ => (true, keep s' .upToMatch)

/-- Whether a command is for the current line. -/
def Selection.holds (sel : Selection) (index : Nat) (s : State) : Bool × State :=
  let (found, s) := match sel.first, sel.last with
    | none, _ => (true, s)
    | some a, none => a.holds s
    | some a, some e => rangeHolds a e index s
  (found != sel.negated, s)

/-- Applies changes of case to a text. -/
def cased (mode once : Option Char) (text : String) : String :=
  let whole := match mode with
    | some 'U' => text.map Char.toUpper
    | some 'L' => text.map Char.toLower
    | _ => text
  match once, whole.toList with
  | some 'u', c :: cs => String.ofList (c.toUpper :: cs)
  | some 'l', c :: cs => String.ofList (c.toLower :: cs)
  | _, _ => whole

/-- The text for a match.  A change of case for one letter that comes to an empty group is handed
on, but only once. -/
def replaceMatch (new : List Replacement) (text : Array Char) (m : Regex.Match) : String :=
  (new.foldl (fun (done, mode, once, handedOn) r =>
    match r with
    | .casing c =>
      if c = 'E' then (done, none, none, false)
      else if c.isUpper then (done, some c, once, handedOn) else (done, mode, some c, false)
    | .text s => (done ++ cased mode once s, mode, none, false)
    | .group n =>
      let s := m.groupText text n
      (done ++ cased mode once s, mode, if s.isEmpty && !handedOn then once else none, true))
    ("", (none : Option Char), (none : Option Char), false)).1

/-- A text with everything that cannot be printed spelled out, in lines of limited width. -/
def listed (text : String) : String :=
  let spelled := text.toList.map fun c =>
    match c with
    | '\\' => "\\\\"
    | '\n' => "\\n"
    | '\t' => "\\t"
    | '\r' => "\\r"
    | c =>
      if c.toNat = 7 then "\\a" else if c.toNat = 8 then "\\b" else if c.toNat = 12 then "\\f"
      else if c.toNat = 11 then "\\v"
      else if c.toNat < 32 || 127 ≤ c.toNat then
        "\\" ++ padLeft 3 '0' (String.ofList (Nat.toDigits 8 c.toNat))
      else String.ofList [c]
  let (lines, last) := spelled.foldl (fun (lines, line) s =>
    if 69 < line.length + s.length then (lines ++ line ++ "\\\n", s) else (lines, line ++ s))
    ("", "")
  lines ++ last ++ "$"

/-- Where a line goes on after a command. -/
inductive Step where
  | on
  | goTo (index : Nat)
  /-- The round ends, with the rest of it or without. -/
  | finish
  | drop
  /-- A new round starts without a new line. -/
  | again
deriving DecidableEq

/-- The position of a label; without a name, the end. -/
def labelIndex (program : Array Command) (name : String) : Nat :=
  if name = "" then program.size
  else (program.findIdx? fun c => c.action == .label name).getD program.size

/-- The text before the first line break, and what follows it. -/
def firstLine (s : String) : String × Option String :=
  let front := s.toList.takeWhile (· != '\n')
  match s.toList.drop front.length with
  | _ :: rest => (String.ofList front, some (String.ofList rest))
  | [] => (s, none)

/-- Adds a line to a file. -/
def appendFile (s : State) (path text : String) (ended : Bool) : State :=
  if path = "/dev/stdout" then s.emit text ended
  else
    let (old, open_) := ((s.files.find? (·.1 == path)).map (·.2)).getD ("", false)
    let new := old ++ (if open_ then "\n" else "") ++ text ++ (if ended then "\n" else "")
    { s with files := (path, new, !ended) :: s.files.filter (·.1 != path) }

/-- The next line of a file that is read line by line. -/
def takeLine (read : String → String) (s : State) (path : String) : Option (String × State) :=
  let lines := match s.sources.find? (·.1 == path) with
    | some (_, lines) => lines
    | none => brokenLines (read path)
  match lines with
  | line :: rest =>
    some (line, { s with sources := (path, rest) :: s.sources.filter (·.1 != path) })
  | [] => none

/-- Carries out the command at a position. -/
def act (read : String → String) (program : Array Command) (index : Nat) (c : Command)
    (s : State) : State × Step :=
  match c.action with
  | .nothing | .close | .label _ | .block _ => (s, .on)
  | .delete => (s, .drop)
  | .deleteFirst =>
    match firstLine s.space with
    | (_, some rest) => ({ s with space := rest }, .again)
    | (_, none) => (s, .drop)
  | .print => (s.printSpace, .on)
  | .printFirst =>
    match firstLine s.space with
    | (front, some _) => (s.emit front true, .on)
    | (front, none) => (s.emit front s.ended, .on)
  | .lineNumber => (s.emitLines (toString s.line ++ "\n"), .on)
  | .append text => ({ s with queue := s.queue ++ [text] }, .on)
  | .insert text => (s.emitLines text, .on)
  | .change text =>
    let inside := !c.selection.negated && s.ranges.any fun (i, p) => i == index && p != .over
    (if inside then s else s.emitLines text, .drop)
  | .branch kind name =>
    let goes := kind == 'b' || (kind == 't' && s.replaced) || (kind == 'T' && !s.replaced)
    let s := if kind == 'b' then s else { s with replaced := false }
    (s, if goes then .goTo (labelIndex program name) else .on)
  | .next =>
    if s.input.isEmpty then
      ({ s with quit := some 0 }, .finish)
    else
      let s := s.endRound
      match s.take? with
      | some s => (s, .on)
      | none => (s, .on)
  | .nextAppend =>
    if s.input.isEmpty then ({ s with quit := some 0 }, .finish)
    else
      let old := s.space
      let s := s.flush
      match s.take? with
      | some s => ({ s with space := old ++ "\n" ++ s.space }, .on)
      | none => (s, .on)
  | .get => ({ s with space := s.kept, ended := s.keptEnded }, .on)
  | .getAppend => ({ s with space := s.space ++ "\n" ++ s.kept, ended := s.keptEnded }, .on)
  | .hold => ({ s with kept := s.space, keptEnded := s.ended }, .on)
  | .holdAppend => ({ s with kept := s.kept ++ "\n" ++ s.space, keptEnded := s.ended }, .on)
  | .exchange =>
    ({ s with space := s.kept, ended := s.keptEnded, kept := s.space, keptEnded := s.ended }, .on)
  | .quit false status => ({ s with quit := some status }, .finish)
  | .quit true status => ({ s with quit := some status, queue := [] }, .drop)
  | .readFile path =>
    let text := read path
    ({ s with queue := s.queue ++ [text] }, .on)
  | .readLine path =>
    match takeLine read s path with
    | some (line, s) => ({ s with queue := s.queue ++ [line] }, .on)
    | none => (s, .on)
  | .writeFile path => (appendFile s path s.space s.ended, .on)
  | .writeFirst path =>
    match firstLine s.space with
    | (front, some _) => (appendFile s path front true, .on)
    | (front, none) => (appendFile s path front s.ended, .on)
  | .substitute r new nth all print file =>
    match r.or s.lastRegex with
    | none => (s, .on)
    | some r =>
      let text := s.space.toList.toArray
      let (done, hits) := r.replace (replaceMatch new text) nth all text
      let hit := hits != 0
      let s := { s with lastRegex := some r }
      if hit then
        let s := { s with space := done, replaced := true }
        let s := if print then s.printSpace else s
        (match file with
          | some path => appendFile s path s.space s.ended
          | none => s, .on)
      else (s, .on)
  | .transliterate pairs =>
    ({ s with space := s.space.map fun c => ((pairs.find? (·.1 == c)).map (·.2)).getD c }, .on)
  | .list => (s.emit (listed s.space) true, .on)
  | .fileName => (s.emitLines (s.name ++ "\n"), .on)
  | .clear => ({ s with space := "" }, .on)

/-- Carries out the commands for a line from a position on. -/
def round (read : String → String) (program : Array Command) : Nat → Nat → State → State × Step
  | 0, _, s => (s, .finish)
  | fuel + 1, index, s =>
    match program[index]? with
    | none => (s, .finish)
    | some c =>
      let (holds, s) := c.selection.holds index s
      if !holds then
        match c.action with
        | .block stop => round read program fuel (stop + 1) s
        | _ => round read program fuel (index + 1) s
      else
        match act read program index c s with
        | (s, .on) => round read program fuel (index + 1) s
        | (s, .goTo index) => round read program fuel index s
        | (s, step) => (s, step)

/-- The number of commands that one line may take. -/
def roundLimit : Nat := 20000

/-- Carries out the commands for all lines. -/
def rounds (read : String → String) (program : Array Command) : Nat → Bool → State → State
  | 0, _, s => s
  | fuel + 1, again, s =>
    let started := if again then some s else s.take?
    match started with
    | none => s
    | some s =>
      let (s, step) := round read program roundLimit 0 s
      let s := match step with
        | .drop => s.flush
        | .again => s
        | _ => s.endRound
      if s.quit.isSome then s else rounds read program fuel (step == .again) s

/-- The input of a run: lines, of which the last one of all, or of every file, counts as last. -/
def inputLines (separate : Bool) (files : List (String × String)) : List InputLine :=
  let linesOf (file : String × String) : List InputLine :=
    (brokenLines file.2).map fun line =>
      match line.toList.getLast? with
      | some '\n' => { text := String.ofList line.toList.dropLast, name := file.1 }
      | _ => { text := line, ended := false, name := file.1 }
  let marked (lines : List InputLine) : List InputLine :=
    lines.zipIdx.map fun (line, i) =>
      { line with isFirst := separate && i == 0, isLast := i + 1 == lines.length }
  if separate then files.flatMap fun file => marked (linesOf file)
  else marked (files.flatMap linesOf)

/-- Runs commands on texts. -/
def run (read : String → String) (program : Array Command) (quiet separate : Bool)
    (files : List (String × String)) : State :=
  let input := inputLines separate files
  let early := program.toList.zipIdx.filterMap fun (c, i) =>
    if c.selection.first == some (.line 0) then some (i, Progress.upToMatch) else none
  rounds read program (8 * (input.map fun l => l.text.length + 2).foldl (· + ·) 0 + 64) false
    { input, quiet, ranges := early, early }

/-- What was not read. -/
def State.rest (s : State) : String :=
  String.join (s.input.map fun l => l.text ++ if l.ended then "\n" else "")

end Sed

/-- Edits text line by line. -/
def sed (args : List String) : Act Nat := do
  let args := args.map fun a => if a = "-i" then "-i\x01" else a
  match Options.read "ne:f:Ersi:uzb" [("quiet", 'n'), ("silent", 'n'), ("expression", 'e'),
    ("file", 'f'), ("regexp-extended", 'E'), ("separate", 's'), ("in-place", 'I'),
    ("unbuffered", 'u'), ("posix", 'u')] args with
  | .error e => failWith ("sed: " ++ e) 1
  | .ok o =>
    let m ← get
    let parts := o.given.filterMap fun (c, v) =>
      if c == 'e' then some (.ok v) else if c == 'f' then some (m.fileText v) else none
    let missing := parts.any fun p => p matches .error _
    if missing then
      return ← failWith ("sed: couldn't open file " ++ (o.value? 'f').getD "" ++
        ": No such file or directory") 4
    let given := parts.filterMap fun (p : Except FileError String) => p.toOption
    if given.isEmpty && o.operands.isEmpty then
      return ← failWith "Usage: sed [OPTION]... SCRIPT [input-file]..." 1
    let script := if given.isEmpty then o.operands.headD "" else Text.joinWith "\n" given
    let files := if given.isEmpty then o.operands.tail else o.operands
    let quiet := o.has 'n' || Text.startsWith "#n\n" script
    match Sed.read? (o.has 'E' || o.has 'r') script with
    | none => failWith "sed: -e expression #1, char 0: unknown command" 1
    | some program =>
      let lost := program.toList.findSome? fun c => match c.action with
        | .branch _ name =>
          if name = "" || program.any fun d => d.action == .label name then none else some name
        | _ => none
      if let some name := lost then
        return ← failWith ("sed: can't find label for jump to `" ++ name ++ "'") 4
      let read (path : String) : String := (m.fileText path).toOption.getD ""
      let complaint (file : String) (e : FileError) : String := match e with
        | .isADirectory => "sed: couldn't edit " ++ file ++ ": not a regular file"
        | _ => "sed: can't read " ++ file ++ ": " ++ reason e
      let finish (s : Sed.State) : Act Unit := do
        for (path, text, _) in s.files do
          match (← get).writeFile path text with
          | .ok m => set m
          | .error _ => pure ()
      let named := program.toList.filterMap fun c => match c.action with
        | .writeFile path | .writeFirst path => some path
        | .substitute _ _ _ _ _ file => file
        | _ => none
      for path in named do
        if path != "/dev/stdout" then
          match (← get).writeFile path "" with
          | .ok m => set m
          | .error e => return ← failWith ("sed: couldn't open file " ++ path ++ ": " ++ reason e) 4
      if o.has 'i' || o.has 'I' then
        let suffix := (o.value? 'i').getD "" |>.toList.filter (· != '\x01') |> String.ofList
        let mut status := 0
        for file in files do
          match (← get).fileText file with
          | .error e =>
            complain (complaint file e)
            status := 4
          | .ok text =>
            let s := Sed.run read program quiet true [(file, text)]
            if suffix != "" then
              match (← get).writeFile (file ++ suffix) text with
              | .ok m => set m
              | .error _ => pure ()
            let rest := if s.quit.isSome then s.rest else ""
            match (← get).writeFile file (s.output ++ rest) with
            | .ok m => set m
            | .error _ => pure ()
            finish s
            if let some n := s.quit then status := max status n
        return status
      else
        let unreadable (file : String) (e : FileError) : String := match e with
          | .isADirectory => "sed: read error on " ++ file ++ ": " ++ reason e
          | _ => complaint file e
        let (found, ok) ← contentsOf unreadable files
        let s := Sed.run read program quiet (o.has 's') found
        say s.output
        if files.isEmpty && s.quit.isSome then giveBack 0 s.rest
        finish s
        return match s.quit with
          | some n => if n = 0 && !ok then 2 else n
          | none => if ok then 0 else 2

end MarkerDoc.Shell.Utility
