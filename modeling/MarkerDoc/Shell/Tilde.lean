import MarkerDoc.Shell.Machine

/-!
# Home directories

A tilde at the start of a word stands for a home directory: that of the account whose name follows
it, or that of the running user.  In the value of a variable a tilde may also stand behind a colon,
so that lists of directories can be written with tildes.
-/

namespace MarkerDoc.Shell

/-- The home directory of an account; without a name, that of the running user. -/
def homeOf? (m : Machine) (name : String) : Option String :=
  if name = "" then m.get? "HOME"
  else
    let accounts := (textLines ((m.fileText "/etc/passwd").toOption.getD "")).map (Text.splitOn ":")
    (accounts.find? (·.head? == some name)).bind (·[5]?)

/-- Replaces tildes in a text that is not quoted.  `atStart` says whether one may stand here,
`isLast` whether the word ends behind the text, and `run` holds the characters before, backwards. -/
def tildeRuns (m : Machine) (colons isLast : Bool) :
    Nat → Bool → List Char → List Char → List Piece
  | 0, _, run, cs => [.text false (String.ofList (run.reverse ++ cs))]
  | _, _, run, [] => if run.isEmpty then [] else [.text false (String.ofList run.reverse)]
  | fuel + 1, atStart, run, c :: cs =>
    let name := cs.takeWhile fun d => !(d == '/' || (colons && d == ':'))
    let home? := if c = '~' && atStart && (isLast || name.length < cs.length) then
        homeOf? m (String.ofList name)
      else none
    match home? with
    | some home =>
      let front := if run.isEmpty then [] else [Piece.text false (String.ofList run.reverse)]
      let inside := if home = "" then [] else [Piece.text true home]
      front ++ inside ++ tildeRuns m colons isLast fuel false [] (cs.drop name.length)
    | none => tildeRuns m colons isLast fuel (colons && c == ':') (c :: run) cs

/-- Replaces tildes behind colons in the pieces after the first. -/
def laterTildes (m : Machine) : Word → Word
  | [] => []
  | .text false s :: rest =>
    tildeRuns m true rest.isEmpty (s.length + 1) false [] s.toList ++ laterTildes m rest
  | p :: rest => p :: laterTildes m rest

/-- Replaces the tildes in a word. -/
def expandTildes (m : Machine) (colons : Bool) (w : Word) : Word :=
  match w with
  | .text false s :: rest =>
    let first := if s.toList.contains '~' then
        tildeRuns m colons rest.isEmpty (s.length + 1) true [] s.toList
      else [.text false s]
    first ++ (if colons then laterTildes m rest else rest)
  | w => if colons then laterTildes m w else w

end MarkerDoc.Shell
