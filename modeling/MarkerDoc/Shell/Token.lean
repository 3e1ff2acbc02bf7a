import MarkerDoc.Shell.Script
import MarkerDoc.Text.Basic

/-!
# Tokens of scripts

A script is read in two layers.  The lower one cuts its characters into words, operators and line
breaks; this module holds what that layer looks at: the characters that are left, the words that
stand for other text, and the documents that were announced and whose text is still to come.
-/

namespace MarkerDoc.Shell

/-- What a script is made of. -/
inductive Token where
  | word (w : Word)
  /-- A word with a meaning of its own. -/
  | keyword (name : String)
  | operator (name : String)
  /-- A redirection without its target: the channel and the operator. -/
  | redirection (channel : Nat) (op : String)
  | lineBreak
  | ending

namespace Token

/-- How messages show a token. -/
def shown : Token → String
  | .word _ => "word"
  | .keyword name | .operator name => "\"" ++ name ++ "\""
  | .redirection .. => "redirection"
  | .lineBreak => "newline"
  | .ending => "end of file"

def isKeyword (name : String) : Token → Bool
  | .keyword n => n == name
  | _ => false

def isOperator (name : String) : Token → Bool
  | .operator n => n == name
  | _ => false

def isBreak : Token → Bool
  | .lineBreak => true
  | _ => false

/-- Words that have a meaning of their own where a command begins. -/
def reserved : List String :=
  ["!", "case", "do", "done", "elif", "else", "esac", "fi", "for", "if", "in", "then", "until",
    "while", "\x7b", "\x7d"]

/-- Whether a token can only stand behind a list of commands. -/
def endsList : Token → Bool
  | .ending => true
  | .operator name => name == ";;" || name == ")"
  | .keyword name =>
    ["do", "done", "elif", "else", "esac", "fi", "then", "\x7d"].contains name
  | _ => false

end Token

/-- Why a script cannot be read. -/
inductive ReadFault where
  /-- A token stands where it cannot, perhaps in place of another one. -/
  | unexpected (found : Token) (wanted : Option String)
  | openQuotes
  | openBraces
  | openExpression
  | openBackquote
  | loopName
  | functionName
  /-- The script is nested too deeply. -/
  | tooDeep

def ReadFault.message : ReadFault → String
  | .unexpected found none => found.shown ++ " unexpected"
  | .unexpected found (some wanted) =>
    found.shown ++ " unexpected (expecting " ++ wanted ++ ")"
  | .openQuotes => "Unterminated quoted string"
  | .openBraces => "Missing '\x7d'"
  | .openExpression => "Missing '))'"
  | .openBackquote => "EOF in backquote substitution"
  | .loopName => "Bad for loop variable"
  | .functionName => "Bad function name"
  | .tooDeep => "nested too deeply"

/-- A fault and the line in which it was noticed. -/
structure Misreading where
  line : Nat
  fault : ReadFault

/-- A document that was announced on a line and begins below it. -/
structure Announcement where
  /-- Which of the documents it is. -/
  index : Nat
  /-- The line that ends it. -/
  mark : List Char
  /-- Whether tabulators in front of its lines are dropped. -/
  dropsTabs : Bool
  /-- Whether everything in it stands for itself. -/
  isPlain : Bool

/-- A word that stands for a text, while that text is being read. -/
structure AliasUse where
  name : String
  /-- The number of characters that follow the text. -/
  behind : Nat
  /-- Whether the word behind it may stand for a text as well. -/
  endsInBlank : Bool

/-- What is left to read. -/
structure Source where
  rest : List Char
  line : Nat := 1
  /-- The words that stand for a text. -/
  aliases : List (String × String) := []
  inUse : List AliasUse := []
  /-- A token that was looked at and not taken. -/
  back : Option Token := none
  /-- The number of documents that were announced so far. -/
  announced : Nat := 0
  awaited : List Announcement := []
  /-- The documents that were read. -/
  documents : List (Nat × Word) := []
  /-- The documents as far as they are known from reading the same lines before. -/
  known : List (Nat × Word) := []
  /-- The document that is being read. -/
  within : Option Announcement := none
  /-- Whether the last line of that document was reached. -/
  atMark : Bool := false

abbrev Reader := StateT Source (Except Misreading)

namespace Reader

/-- Gives up. -/
def refuse {α : Type} (fault : ReadFault) : Reader α := do
  throw { line := (← get).line, fault }

/-- Gives up because of a token. -/
def reject {α : Type} (found : Token) (wanted : Option String) : Reader α :=
  refuse (.unexpected found wanted)

/-! ## Characters -/

/-- The next character as it is written. -/
def look : Reader (Option Char) := do
  let s ← get
  return if s.atMark then none else s.rest.head?

/-- Drops a character. -/
def skip : Reader Unit :=
  modify fun s =>
    match s.rest with
    | '\n' :: rest => { s with rest, line := s.line + 1 }
    | _ :: rest => { s with rest }
    | [] => s

/-- Drops some characters without counting lines. -/
def skipText (size : Nat) : Reader Unit :=
  modify fun s => { s with rest := s.rest.drop size }

/-- Drops line breaks behind a backslash; how many there were. -/
def joined : List Char → List Char × Nat
  | '\\' :: '\n' :: rest =>
    let (rest, lines) := joined rest
    (rest, lines + 1)
  | cs => (cs, 0)

/-- The next character, where lines may be continued. -/
def peek : Reader (Option Char) := do
  let s ← get
  match s.rest with
  | '\\' :: '\n' :: _ =>
    if !s.atMark then
      let (rest, lines) := joined s.rest
      set { s with rest, line := s.line + lines }
    look
  | _ => look

/-- Divides a text behind the characters of a kind in front, where lines may be continued; how many
were. -/
def runOf (belongs : Char → Bool) : List Char → List Char × List Char × Nat
  | '\\' :: '\n' :: rest =>
    let (run, rest, lines) := runOf belongs rest
    (run, rest, lines + 1)
  | c :: rest =>
    if belongs c then
      let (run, rest, lines) := runOf belongs rest
      (c :: run, rest, lines)
    else ([], c :: rest, 0)
  | [] => ([], [], 0)

/-- Takes the characters of a kind in front. -/
def takeRun (belongs : Char → Bool) : Reader (List Char) := do
  let s ← get
  let (run, rest, lines) := runOf belongs s.rest
  set { s with rest, line := s.line + lines }
  return run

/-- Drops blanks. -/
def skipBlanks : Reader Unit := do
  let _ ← takeRun fun c => c == ' ' || c == '\t'

/-- A character that ends a word. -/
def endsWord (c : Char) : Bool := " \t\n;&|()<>".toList.contains c

/-- A parameter that is written with a sign. -/
def isSign (c : Char) : Bool := "@*#?$!-".toList.contains c

/-- Notices the last line of the document that is being read, and drops tabulators in front of
any other line. -/
def checkMark : Reader Unit :=
  modify fun s =>
    match s.within with
    | none => s
    | some d =>
      let rest := if d.dropsTabs then s.rest.dropWhile (· == '\t') else s.rest
      match Text.afterLead? d.mark rest with
      | some [] => { s with rest := [], atMark := true }
      | some ('\n' :: after) => { s with rest := after, line := s.line + 1, atMark := true }
      | _ => { s with rest }

/-- Takes the characters of a document in which nothing is filled in. -/
def plainLines : Nat → Reader (List Char)
  | 0 => return []
  | fuel + 1 => do
    match ← look with
    | none => return []
    | some c =>
      skip
      if c = '\n' then checkMark
      return c :: (← plainLines fuel)

/-! ## Operators -/

/-- The text up to the closing backquote, without the backslashes that keep its characters, and
what follows it. -/
def backquoted (quoted : Bool) : List Char → Option (List Char × List Char)
  | [] => none
  | [c] => if c = backquote then some ([], []) else none
  | c :: d :: cs =>
    if c = backquote then some ([], d :: cs)
    else if c = '\\' then
      if d = '\n' then backquoted quoted cs
      else
        let kept := d == '$' || d == '\\' || d == backquote || (quoted && d == '"')
        (backquoted quoted cs).map fun (a, b) => (if kept then d :: a else c :: d :: a, b)
    else (backquoted quoted (d :: cs)).map fun (a, b) => (c :: a, b)

/-- The operators of redirections, longer ones before those that they begin with. -/
def redirectionOperators : List String :=
  ["<<-", "<<", "<&", "<>", "<", ">>", ">&", ">|", ">"]

/-- The other operators, longer ones before those that they begin with. -/
def plainOperators : List String :=
  [";;", ";", "&&", "&", "||", "|", "(", ")"]

/-- The first of some operators that stands at the head, where lines may be continued. -/
def takeOperator? (operators : List String) : Reader (Option String) := do
  let rec leading (fuel : Nat) (lead : List Char) : Reader (List Char) := do
    match fuel with
    | 0 => return lead
    | fuel + 1 =>
      match ← peek with
      | some c =>
        let longer := lead ++ [c]
        if operators.any fun op => op.toList.take longer.length == longer then
          skip
          leading fuel longer
        else return lead
      | none => return lead
  let found ← leading 3 []
  return if found.isEmpty then none else some (String.ofList found)

/-! ## Words that stand for a text -/

/-- The text that a word stands for, unless that text is being read. -/
def aliasText? (s : Source) (name : String) : Option String :=
  let size := s.rest.length
  if s.inUse.any fun u => u.name == name && u.behind ≤ size then none
  else (s.aliases.find? (·.1 == name)).map (·.2)

/-- Puts the text of a word in front of what is left. -/
def enterAlias (name text : String) : Reader Unit :=
  modify fun s =>
    let behind := s.rest.length
    let use : AliasUse := { name, behind, endsInBlank := text.toList.getLast?.any fun c =>
      c == ' ' || c == '\t' }
    { s with
      rest := text.toList ++ s.rest
      inUse := use :: s.inUse.filter fun u => u.behind ≤ behind }

end Reader

end MarkerDoc.Shell
