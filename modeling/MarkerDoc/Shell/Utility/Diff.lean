import MarkerDoc.Shell.Utility.Alignment
import MarkerDoc.Shell.Utility.Files

/-!
# Differences between files

Two texts are compared line by line, and the lines that do not stay are shown as removed or added.
-/

namespace MarkerDoc.Shell.Utility

/-- A line of a comparison. -/
inductive Edit where
  | keep (line : String)
  | remove (line : String)
  | add (line : String)
deriving DecidableEq

namespace Edit

def text : Edit → String
  | .keep s | .remove s | .add s => s

def isKeep : Edit → Bool
  | .keep _ => true
  | _ => false

def isRemove : Edit → Bool
  | .remove _ => true
  | _ => false

/-- Puts the marked lines of two texts together. -/
def weave : List (String × Bool) → List (String × Bool) → List Edit
  | (x, true) :: xs, ys => .remove x :: weave xs ys
  | xs, (y, true) :: ys => .add y :: weave xs ys
  | (x, false) :: xs, (_, false) :: ys => .keep x :: weave xs ys
  | (x, false) :: xs, [] => .keep x :: weave xs []
  | [], (y, false) :: ys => .keep y :: weave [] ys
  | [], [] => []
termination_by xs ys => xs.length + ys.length

/-- The number of equal elements in front of two lists. -/
def commonSize : List String → List String → Nat
  | x :: xs, y :: ys => if x = y then commonSize xs ys + 1 else 0
  | _, _ => 0

/-- The edits that lead from one text to the other, where lines with equal keys are equal.  The
equal lines at both ends are set apart, except for those that are shown as context. -/
def script (key : String → String) (context : Nat) (xs ys : List String) : List Edit :=
  let front := commonSize xs ys - context
  let xs' := xs.drop front
  let ys' := ys.drop front
  let back := commonSize xs'.reverse ys'.reverse - context
  let xs' := xs'.take (xs'.length - back)
  let ys' := ys'.take (ys'.length - back)
  let keys := (xs' ++ ys').map key
  let number (line : String) : Nat := keys.idxOf (key line)
  let a : Alignment := ⟨(xs'.map number).toArray, (ys'.map number).toArray⟩
  let (removed, added) := a.changed
  (xs.take front).map .keep ++ weave (xs'.zip removed.toList) (ys'.zip added.toList) ++
    (xs.drop (xs.length - back)).map .keep

/-- A group of neighbouring changes, with the numbers of the lines before it. -/
structure Hunk where
  oldStart : Nat
  newStart : Nat
  edits : List Edit

/-- Groups neighbouring changes. -/
def hunks (old new : Nat) : Option Hunk → List Edit → List Hunk
  | current, [] => current.toList
  | current, e :: es =>
    match e with
    | .keep _ => current.toList ++ hunks (old + 1) (new + 1) none es
    | .remove _ =>
      let h := current.getD { oldStart := old, newStart := new, edits := [] }
      hunks (old + 1) new (some { h with edits := h.edits ++ [e] }) es
    | .add _ =>
      let h := current.getD { oldStart := old, newStart := new, edits := [] }
      hunks old (new + 1) (some { h with edits := h.edits ++ [e] }) es

/-- A range of lines in a heading. -/
def span (start size : Nat) : String :=
  if size = 0 then toString start
  else if size = 1 then toString (start + 1)
  else toString (start + 1) ++ "," ++ toString (start + size)

/-- The lines of a text; the last one has a mark if its line break is missing. -/
def linesOf (text : String) : List String :=
  (brokenLines text).map fun line =>
    match line.toList.getLast? with
    | some '\n' => String.ofList line.toList.dropLast
    | _ => line ++ "\n\\ No newline at end of file"

/-- The usual description of the differences. -/
def plain (es : List Edit) : String :=
  String.join ((hunks 0 0 none es).map fun h =>
    let removed := h.edits.filter isRemove
    let added := h.edits.filter fun e => !e.isRemove
    let letter := if removed.isEmpty then "a" else if added.isEmpty then "d" else "c"
    span h.oldStart removed.length ++ letter ++ span h.newStart added.length ++ "\n" ++
      String.join (removed.map fun e => "< " ++ e.text ++ "\n") ++
      (if letter = "c" then "---\n" else "") ++
      String.join (added.map fun e => "> " ++ e.text ++ "\n"))

/-- The edits with the numbers of the lines before them. -/
def numbered (old new : Nat) : List Edit → List (Nat × Nat × Edit)
  | [] => []
  | e :: es =>
    let (old', new') := match e with
      | .keep _ => (old + 1, new + 1)
      | .remove _ => (old + 1, new)
      | .add _ => (old, new + 1)
    (old, new, e) :: numbered old' new' es

/-- The parts of a comparison that show changes with some lines around them. -/
def windows (context : Nat) (es : List Edit) : List (List (Nat × Nat × Edit)) :=
  let all := (numbered 0 0 es).zipIdx
  let changes := all.filterMap fun ((_, _, e), i) => if e.isKeep then none else some i
  let shown := all.filter fun (_, i) => changes.any fun k => k ≤ i + context && i ≤ k + context
  let groups := shown.foldl (fun groups (x, i) =>
    match groups with
    | (last, xs) :: rest => if i = last + 1 then (i, xs ++ [x]) :: rest else (i, [x]) :: groups
    | [] => [(i, [x])]) ([] : List (Nat × List (Nat × Nat × Edit)))
  groups.reverse.map (·.2)

/-- The description of the differences with lines around them. -/
def unified (context : Nat) (es : List Edit) : String :=
  let heading (start size : Nat) : String :=
    let start := if size = 0 then start else start + 1
    if size = 1 then toString start else toString start ++ "," ++ toString size
  String.join ((windows context es).map fun w =>
    let (old, new) := match w with
      | (old, new, _) :: _ => (old, new)
      | [] => (0, 0)
    let removed := (w.filter fun (_, _, e) => e.isKeep || e.isRemove).length
    let added := (w.filter fun (_, _, e) => !e.isRemove).length
    "@@ -" ++ heading old removed ++ " +" ++ heading new added ++ " @@\n" ++
      String.join (w.map fun (_, _, e) => (match e with
        | .keep s => " " ++ s
        | .remove s => "-" ++ s
        | .add s => "+" ++ s) ++ "\n"))

/-- The lines of a comparison with their marks; changed lines are told apart from lines that are
only removed or added. -/
def contextMarks (es : List Edit) : List (Edit × String) :=
  (es.splitBy fun a b => a.isKeep == b.isKeep).flatMap fun run =>
    let both := run.any isRemove && run.any fun e => !e.isRemove
    run.map fun e => (e, match e with
      | .keep _ => "  "
      | .remove _ => if both then "! " else "- "
      | .add _ => if both then "! " else "+ ")

/-- The description of the differences that shows both texts one after the other. -/
def besides (context : Nat) (es : List Edit) : String :=
  String.join ((windows context es).map fun w =>
    let (old, new) := match w with
      | (old, new, _) :: _ => (old, new)
      | [] => (0, 0)
    let marked := contextMarks (w.map fun (_, _, e) => e)
    let before := marked.filter fun (e, _) => e.isKeep || e.isRemove
    let after := marked.filter fun (e, _) => !e.isRemove
    let part (lines : List (Edit × String)) : String :=
      if lines.all fun (e, _) => e.isKeep then ""
      else String.join (lines.map fun (e, mark) => mark ++ e.text ++ "\n")
    "***************\n*** " ++ span old before.length ++ " ****\n" ++ part before ++
      "--- " ++ span new after.length ++ " ----\n" ++ part after)

/-- The differences as commands for a line editor. -/
def commands (es : List Edit) : String :=
  String.join ((hunks 0 0 none es).reverse.map fun h =>
    let removed := h.edits.filter isRemove
    let added := h.edits.filter fun e => !e.isRemove
    let letter := if removed.isEmpty then "a" else if added.isEmpty then "d" else "c"
    span h.oldStart removed.length ++ letter ++ "\n" ++
      if added.isEmpty then "" else String.join (added.map fun e => e.text ++ "\n") ++ ".\n")

end Edit

/-- Shows the differences between two files. -/
def diffFiles (o : Options) (heading a b : String) : Act Nat := do
  let m ← get
  let absent (path : String) : Bool := o.has 'N' && path != "-" && !m.exists? path
  let (found, ok) ← contentsOf (bareComplaint "diff") ([a, b].filter fun path => !absent path)
  if !ok then return 2
  let textOf (path : String) : String := ((found.find? (·.1 == path)).map (·.2)).getD ""
  let blank (c : Char) : Bool := c == ' ' || c == '\t'
  let key (s : String) : String :=
    let s := if o.has 'i' then s.map Char.toLower else s
    if o.has 'w' then String.ofList (s.toList.filter fun c => !blank c)
    else if o.has 'b' then Text.joinWith " " (Text.words s)
    else s
  let number (c : Char) : Option Nat := (o.value? c).bind String.toNat?
  let context := if o.has 'u' || o.has 'c' || o.has 'U' || o.has 'C' then
      ((number 'U').or (number 'C')).getD 3
    else 0
  let es := Edit.script key context (Edit.linesOf (textOf a)) (Edit.linesOf (textOf b))
  let labels := o.values 'L'
  let stamp := "\t1970-01-01 00:00:00.000000000 +0000"
  let headings (old new : String) : String :=
    old ++ labels.getD 0 (a ++ stamp) ++ "\n" ++ new ++ labels.getD 1 (b ++ stamp) ++ "\n"
  if es.all Edit.isKeep then
    if o.has 's' then say ("Files " ++ a ++ " and " ++ b ++ " are identical\n")
    return 0
  else
    say (if o.has 'q' then "Files " ++ a ++ " and " ++ b ++ " differ\n"
      else heading ++
        if o.has 'u' || o.has 'U' then headings "--- " "+++ " ++ Edit.unified context es
        else if o.has 'c' || o.has 'C' then headings "*** " "--- " ++ Edit.besides context es
        else if o.has 'e' then Edit.commands es
        else Edit.plain es)
    return 1

/-- Shows the differences between two directories. -/
def diffDirs (o : Options) (command : String) : Nat → String → String → Act Nat
  | 0, _, _ => return 0
  | fuel + 1, a, b => do
    let m ← get
    let names := (m.namesIn a ++ m.namesIn b).eraseDups.mergeSort fun x y => x ≤ y
    let mut status := 0
    for name in names do
      let x := pathIn a name
      let y := pathIn b name
      let alone (path : String) : Bool := !m.exists? path && !o.has 'N'
      let one ← if alone y then do
          say ("Only in " ++ a ++ ": " ++ name ++ "\n")
          pure 1
        else if alone x then do
          say ("Only in " ++ b ++ ": " ++ name ++ "\n")
          pure 1
        else
          match m.isDir x, m.isDir y with
          | true, true =>
            if o.has 'r' then diffDirs o command fuel x y
            else do
              say ("Common subdirectories: " ++ x ++ " and " ++ y ++ "\n")
              pure 0
          | false, false => diffFiles o (command ++ x ++ " " ++ y ++ "\n") x y
          | isDir, _ => do
            let kind (d : Bool) : String := if d then "a directory" else "a regular file"
            say ("File " ++ x ++ " is " ++ kind isDir ++ " while file " ++ y ++ " is " ++
              kind (!isDir) ++ "\n")
            pure 1
      status := max status one
    return status

/-- Shows the differences between two files or directories. -/
def diff (args : List String) : Act Nat :=
  withOptions "diff" "qsuU:C:iwbBrNaceL:" [("brief", 'q'), ("report-identical-files", 's'),
    ("unified", 'u'), ("context", 'c'), ("ed", 'e'), ("ignore-case", 'i'),
    ("ignore-all-space", 'w'), ("ignore-space-change", 'b'), ("ignore-blank-lines", 'B'),
    ("recursive", 'r'), ("new-file", 'N'), ("text", 'a'), ("label", 'L'), ("normal", 'a')] 2 args
  fun o => do
    match o.operands with
    | [a, b] =>
      let m ← get
      if m.isDir a && m.isDir b then
        let options := args.filter fun arg => Text.startsWith "-" arg
        let command := Text.joinWith " " ("diff" :: options) ++ " "
        diffDirs o command (a.length + b.length + 100) a b
      else
        let a' := if m.isDir a then pathIn a (baseName b) else a
        let b' := if m.isDir b then pathIn b (baseName a) else b
        diffFiles o "" a' b'
    | [] => failWith "diff: missing operand after 'diff'" 2
    | [a] => failWith ("diff: missing operand after " ++ inQuotes a) 2
    | _ :: _ :: c :: _ => failWith ("diff: extra operand " ++ inQuotes c) 2

end MarkerDoc.Shell.Utility
