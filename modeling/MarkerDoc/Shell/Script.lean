import MarkerDoc.Shell.Bytes

/-!
# Scripts of the command language

A script is made of commands, which are combined by pipes, conditions, loops and sequences.  The
words of a command are lists of pieces: plain text, and places where a parameter, the output of a
command or the value of an expression is filled in.  What is filled in stays one piece when it
stands in quotes and is divided into fields when it does not.
-/

namespace MarkerDoc.Shell

mutual

/-- A part of a word; the flag says whether it stands in quotes. -/
inductive Piece where
  | text (quoted : Bool) (s : String)
  /-- A parameter, how it is changed, and the word that the change works with.  A change that makes
  no sense is only a fault where the parameter is needed. -/
  | parameter (quoted : Bool) (name change : String) (word : List Piece)
  /-- The output of a command. -/
  | output (quoted : Bool) (body : Command)
  /-- The value of an expression. -/
  | number (quoted : Bool) (expression : List Piece)

/-- Sends one of the channels of a command elsewhere. -/
inductive Redirection where
  | to (channel : Nat) (operator : String) (target : List Piece)

inductive Command where
  | empty
  | simple (line : Nat) (assignments : List (String × List Piece)) (words : List (List Piece))
  | redirected (body : Command) (redirections : List Redirection)
  | subshell (body : Command)
  | background (body : Command)
  | negated (body : Command)
  | sequence (first second : Command)
  | both (first second : Command)
  | either (first second : Command)
  | pipe (first second : Command)
  | choose (condition positive negative : Command)
  /-- Repeats the body as long as the condition has the wanted outcome. -/
  | loop (wanted : Bool) (condition body : Command)
  | each (name : String) (words : Option (List (List Piece))) (body : Command)
  /-- Goes to the first of the arms below that matches the word. -/
  | select (word : List Piece) (arms : Command)
  | arm (patterns : List (List Piece)) (body next : Command)
  /-- Gives a body a name. -/
  | define (name : String) (body : Command)
  /-- A command that begins in a line. -/
  | numbered (line : Nat) (body : Command)

end

abbrev Word := List Piece

/-- Commands that belong to the language: their faults end the script, variables that are set for
them stay set, and functions cannot have their names. -/
def specialCommands : List String :=
  [":", ".", "break", "continue", "eval", "exec", "exit", "export", "local", "readonly", "return",
    "set", "shift", "times", "trap", "unset"]

namespace Piece

def isQuoted : Piece → Bool
  | .text quoted _ | .parameter quoted .. | .output quoted _ | .number quoted _ => quoted

/-- The text of a piece in which nothing is filled in. -/
def plainText : Piece → String
  | .text _ s => s
  | _ => ""

/-- Whether the output of a command is filled in. -/
def fillsOutput : Piece → Bool
  | .output .. => true
  | _ => false

end Piece

namespace Command

def isEmpty : Command → Bool
  | .empty => true
  | _ => false

/-- Adds redirections, if there are any. -/
def redirect (body : Command) : List Redirection → Command
  | [] => body
  | rs => .redirected body rs

/-- Commands one after the other. -/
def inOrder : List Command → Command
  | [] => .empty
  | [c] => c
  | c :: cs => .sequence c (inOrder cs)

end Command

namespace Word

/-- The text of a word without quotes in which nothing is filled in. -/
def bare? : Word → Option String
  | [] => some ""
  | [.text false s] => some s
  | _ => none

/-- Whether any part of a word stands in quotes. -/
def isQuoted (w : Word) : Bool := w.any Piece.isQuoted

/-- Puts a piece in front; neighbouring texts of one kind become one. -/
def push (p : Piece) (w : Word) : Word :=
  match p, w with
  | .text a s, .text b t :: rest => if a = b then .text a (s ++ t) :: rest else p :: w
  | p, w => p :: w

/-- An assignment in front of a command: the name and the word behind the sign. -/
def assignment? (w : Word) : Option (String × Word) :=
  match w with
  | .text false s :: rest =>
    let name := s.toList.takeWhile (· != '=')
    if name.length < s.length && isName (String.ofList name) then
      let value := s.toList.drop (name.length + 1)
      let front := if value.isEmpty then [] else [Piece.text false (String.ofList value)]
      some (String.ofList name, front ++ rest)
    else none
  | _ => none

end Word

end MarkerDoc.Shell
