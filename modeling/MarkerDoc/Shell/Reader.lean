import MarkerDoc.Shell.Token

/-!
# Reading scripts

Scripts are read one line after the other: a line is read and carried out before the next one is
looked at, so a fault further down does not keep earlier lines from running.  Commands inside words
are read by the same rules as those outside, which is how the end of a word is found.

The text of a document stands below the line that announces it.  It is only known once that line has
been read, so lines with documents are read again with the documents at hand.
-/

namespace MarkerDoc.Shell

/-- Where pieces stand, which decides what ends them and which characters are special. -/
inductive Surrounding where
  | word
  /-- A word that marks the end of a document, where nothing is filled in. -/
  | mark
  | quotes (inMark : Bool)
  /-- A document, in which double quotes are not special. -/
  | document
  /-- The word of a parameter in braces: whether the braces stand in quotes, and whether there are
  further quotes inside them. -/
  | braces (quoted inner : Bool)
  /-- An expression, inside some open parentheses. -/
  | expression (depth : Nat)
deriving DecidableEq

namespace Surrounding

/-- Whether text counts as quoted. -/
def isQuoted : Surrounding → Bool
  | .word | .mark | .braces false _ => false
  | _ => true

/-- Whether something can be filled in. -/
def fills : Surrounding → Bool
  | .mark | .quotes true => false
  | _ => true

/-- Whether a backslash goes away in front of a character. -/
def escapes (s : Surrounding) (c : Char) : Bool :=
  c == '$' || c == '\\' || c == backquote || (c == '"' && s != .document) ||
    (c == rightBrace && s == .braces true false)

end Surrounding

/-- What is looked for in the next token: whether line breaks are passed over, whether words may
have a meaning of their own or stand for a text, and whether it marks the end of a document. -/
structure Looking where
  passesLines : Bool := false
  keywords : Bool := false
  aliases : Bool := false
  mark : Bool := false

namespace Looking

/-- Looks for a command in the same line. -/
def command : Looking := { keywords := true, aliases := true }

/-- Looks for a command in this line or a later one. -/
def later : Looking := { passesLines := true, keywords := true, aliases := true }

end Looking

namespace Reader

/-- Characters that stand for themselves everywhere. -/
def isOrdinary (c : Char) : Bool :=
  !(c == '\\' || c == '$' || c == backquote || c == '"' || c == singleQuote || c == rightBrace ||
    endsWord c)

/-- Whether pieces may end where the text does. -/
def checkEnd (s : Surrounding) : Reader Unit := do
  match s with
  | .word | .mark | .document => return ()
  | .expression _ => refuse .openExpression
  | .braces false _ => refuse .openBraces
  | .quotes _ | .braces true _ =>
    refuse (if (← get).within.isSome then .openBraces else .openQuotes)

/-- Takes a text in single quotes, after the opening one. -/
def singleQuoted : Reader String := do
  let s ← get
  let inside := s.rest.takeWhile (· != singleQuote)
  set { s with rest := s.rest.drop inside.length, line := s.line + inside.count '\n' }
  match ← look with
  | none => refuse .openQuotes
  | some _ =>
    skip
    return String.ofList inside

/-- Takes the text of a command in backquotes, after the opening one. -/
def backquotedText (quoted : Bool) : Reader (List Char) := do
  let s ← get
  match backquoted quoted s.rest with
  | none =>
    set { s with rest := [], line := s.line + s.rest.count '\n' }
    refuse .openBackquote
  | some (inside, after) =>
    let lines := (s.rest.take (s.rest.length - after.length)).count '\n'
    set { s with rest := after, line := s.line + lines }
    return inside

/-- How a parameter in braces is changed, after its name; nothing if that makes no sense. -/
def takeChange : Reader (Option String) := do
  match ← peek with
  | none => return none
  | some c =>
    skipText 1
    if c = rightBrace then return some ""
    else if "-+?=".toList.contains c then return some (String.ofList [c])
    else if c = ':' then
      match ← peek with
      | none => return none
      | some d =>
        skipText 1
        return if "-+?=".toList.contains d then some (String.ofList [c, d]) else none
    else if c = '#' || c = '%' then
      if (← peek) = some c then
        skip
        return some (String.ofList [c, c])
      else return some (String.ofList [c])
    else return none

/-- The name of a parameter in braces that is a word or a number. -/
def takeName : Reader String := do
  match ← peek with
  | some c =>
    return String.ofList (← takeRun (if isNameStart c then isNameChar else Char.isDigit))
  | none => return ""

/-- A parameter in braces up to its word: the name, and how it is changed. -/
def takeParameter : Reader (String × Option String) := do
  match ← peek with
  | none => return ("", none)
  | some c =>
    if isNameChar c then
      let name ← takeName
      return (name, ← takeChange)
    else if c = rightBrace then return ("", none)
    else
      skip
      if c != '#' then
        if isSign c then return (String.ofList [c], ← takeChange) else return ("", none)
      else
        match ← peek with
        | none => return ("#", none)
        | some d =>
          if isNameChar d then
            let name ← takeName
            if (← peek) = some rightBrace then
              skip
              return (name, some "length")
            else return (name, none)
          else
            let before ← get
            skip
            if d != rightBrace && (← peek) = some rightBrace then
              if isSign d then
                skip
                return (String.ofList [d], some "length")
              else return ("", none)
            else
              set before
              return ("#", ← takeChange)

/-- Reads a redirection operator with its channel, if a word is followed by one. -/
def redirection? (w : Word) : Reader (Option Token) := do
  let channel := match Word.bare? w with
    | some "" => some none
    | some s => if s.length = 1 && s.toList.all Char.isDigit then some s.toNat? else none
    | none => none
  match channel, ← peek with
  | some channel, some c =>
    if c = '<' || c = '>' then
      let op ← takeOperator? redirectionOperators
      return some (.redirection (channel.getD (if c = '<' then 0 else 1)) (op.getD ""))
    else return none
  | _, _ => return none

/-- Drops a comment up to the line break. -/
def skipComment : Reader Unit :=
  modify fun s => { s with rest := s.rest.dropWhile (· != '\n') }

/-- Keeps a token for later. -/
def putBack (t : Token) : Reader Unit :=
  modify ({ · with back := some t })

mutual

/-- The pieces up to the end of their surroundings. -/
def readPieces : Nat → Surrounding → Reader Word
  | 0, _ => refuse .tooDeep
  | fuel + 1, s => do
    let quoted := s.isQuoted
    match ← peek with
    | none =>
      checkEnd s
      return []
    | some c =>
      if c = '\n' && (s = .word || s = .mark) then return []
      else if c = '\\' then
        skip
        match ← look with
        | none => return Word.push (.text true "\\") (← readPieces fuel s)
        | some d =>
          skip
          let text := if !quoted || s.escapes d then [d] else [c, d]
          return Word.push (.text true (String.ofList text)) (← readPieces fuel s)
      else if c = '$' && s.fills then
        skip
        let p ← readFill fuel quoted
        return Word.push p (← readPieces fuel s)
      else if c = backquote && s.fills then
        skip
        let body ← readBackquoted fuel quoted
        return .output quoted body :: (← readPieces fuel s)
      else if c = '"' && s != .document then
        match s with
        | .quotes _ =>
          skip
          return []
        | .braces true inner =>
          skip
          readPieces fuel (.braces true !inner)
        | .expression _ => readText fuel s
        | _ =>
          skip
          let inside ← readPieces fuel (.quotes (s == .mark))
          let isAll := match inside with
            | [.parameter true "@" "" []] => true
            | _ => false
          let more ← readPieces fuel s
          return if isAll then inside ++ more else Word.push (.text true "") (inside ++ more)
      else if c = singleQuote && !quoted then
        skip
        let text ← singleQuoted
        return Word.push (.text true text) (← readPieces fuel s)
      else
        match s, c with
        | .expression depth, '(' =>
          skip
          return Word.push (.text true "(") (← readPieces fuel (.expression (depth + 1)))
        | .expression (depth + 1), ')' =>
          skip
          return Word.push (.text true ")") (← readPieces fuel (.expression depth))
        | .expression 0, ')' =>
          skip
          if (← peek) = some ')' then
            skip
            return []
          else return Word.push (.text true ")") (← readPieces fuel s)
        | .braces _ inner, c =>
          if c = rightBrace && !inner then
            skip
            return []
          else readText fuel s
        | .word, c | .mark, c => if endsWord c then return [] else readText fuel s
        | _, _ => readText fuel s

/-- Characters that stand for themselves, the first one whatever it is. -/
def readText : Nat → Surrounding → Reader Word
  | 0, _ => refuse .tooDeep
  | fuel + 1, s => do
    let rest := (← get).rest
    let more := rest.tail.takeWhile isOrdinary
    if rest.head? = some '\n' then
      skip
      checkMark
      return Word.push (.text s.isQuoted "\n") (← readPieces fuel s)
    else
      skipText (more.length + 1)
      let text := String.ofList (rest.take (more.length + 1))
      return Word.push (.text s.isQuoted text) (← readPieces fuel s)

/-- What is filled in after a dollar sign; the sign may also stand for itself. -/
def readFill : Nat → Bool → Reader Piece
  | 0, _ => refuse .tooDeep
  | fuel + 1, quoted => do
    match ← peek with
    | none => return .text quoted "$"
    | some c =>
      if c = '(' then
        skip
        if (← peek) = some '(' then
          skip
          return .number quoted (← readPieces fuel (.expression 0))
        else return .output quoted (← readSubstitution fuel)
      else if c = leftBrace then
        skip
        let (name, change) ← takeParameter
        match change with
        | some "" | some "length" => return .parameter quoted name (change.getD "") []
        | _ =>
          let change := change.getD "bad"
          let cuts := Text.startsWith "#" change || Text.startsWith "%" change
          let word ← readPieces fuel (.braces (quoted && !cuts) false)
          return .parameter quoted name change word
      else if isNameStart c then return .parameter quoted (← takeName) "" []
      else if c.isDigit || isSign c then
        skip
        return .parameter quoted (String.ofList [c]) "" []
      else return .text quoted "$"

/-- Commands up to a closing parenthesis, whose output is filled in. -/
def readSubstitution : Nat → Reader Command
  | 0 => refuse .tooDeep
  | fuel + 1 => do
    let before ← get
    set { before with within := none, awaited := [], back := none }
    let body ← readList fuel false true []
    expectOperator fuel ")"
    modify fun s =>
      { s with within := before.within, awaited := before.awaited, back := none }
    return body

/-- Commands in backquotes, whose output is filled in. -/
def readBackquoted : Nat → Bool → Reader Command
  | 0, _ => refuse .tooDeep
  | fuel + 1, quoted => do
    let inside ← backquotedText quoted
    let before ← get
    set { before with
      rest := inside, line := 1, inUse := [], back := none, awaited := [], within := none
      atMark := false }
    let body ← readList fuel false true []
    modify fun s =>
      { before with announced := s.announced, documents := s.documents }
    return body

/-- The next word, operator or line break as it is written. -/
def readToken : Nat → Bool → Reader Token
  | 0, _ => refuse .tooDeep
  | fuel + 1, isMark => do
    match ← peek with
    | none => return .ending
    | some '\n' =>
      skip
      return .lineBreak
    | some c =>
      if c = '#' then
        skipComment
        readToken fuel isMark
      else if ";&|()".toList.contains c then
        return .operator ((← takeOperator? plainOperators).getD "")
      else
        let w ← readPieces fuel (if isMark then .mark else .word)
        return (← redirection? w).getD (.word w)

/-- The next token, in which words are looked at as asked for. -/
def token : Nat → Looking → Reader Token
  | 0, _ => refuse .tooDeep
  | fuel + 1, looking => do
    let s ← get
    let (t, leaves) ← match s.back with
      | some t => do
        set { s with back := none }
        pure (t, false)
      | none => do
        let size := if s.inUse.isEmpty then 0 else s.rest.length
        skipBlanks
        let after ← get
        let left := if s.inUse.isEmpty then 0 else after.rest.length
        let leaves := s.inUse.any fun u => u.endsInBlank && u.behind < size && left ≤ u.behind
        pure (← readToken fuel looking.mark, leaves)
    match t with
    | .lineBreak =>
      if looking.passesLines then
        readDocuments fuel
        token fuel looking
      else return t
    | .word w =>
      match Word.bare? w with
      | none => return t
      | some name =>
        if looking.keywords && Token.reserved.contains name then return .keyword name
        else if looking.aliases || leaves then
          match aliasText? (← get) name with
          | some text =>
            enterAlias name text
            token fuel { looking with aliases := true }
          | none => return t
        else return t
    | t => return t

/-- Takes an expected operator. -/
def expectOperator : Nat → String → Reader Unit
  | 0, _ => refuse .tooDeep
  | fuel + 1, name => do
    let t ← token fuel {}
    if t.isOperator name then return () else reject t (some (Token.operator name).shown)

/-- Takes an expected word with a meaning of its own. -/
def expectKeyword : Nat → Looking → String → Reader Unit
  | 0, _, _ => refuse .tooDeep
  | fuel + 1, looking, name => do
    let t ← token fuel looking
    if t.isKeyword name then return () else reject t (some (Token.keyword name).shown)

/-- Reads the documents that were announced, from the line break on. -/
def readDocuments : Nat → Reader Unit
  | 0 => refuse .tooDeep
  | fuel + 1 => do
    match (← get).awaited with
    | [] => return ()
    | d :: awaited =>
      let outer := (← get).within
      modify ({ · with awaited, within := some d, atMark := false })
      checkMark
      let size := (← get).rest.length
      let word ← if d.isPlain then do pure [Piece.text true (String.ofList (← plainLines size))]
        else readPieces fuel .document
      modify fun s =>
        { s with within := outer, atMark := false, documents := (d.index, word) :: s.documents }
      readDocuments fuel

/-- Commands one after the other, on top of those that were read.  They go on to the end of the line
if there is only one line, and otherwise to something that ends them; `mayEnd` says whether that
may come at once. -/
def readList : Nat → Bool → Bool → List Command → Reader Command
  | 0, _, _, _ => refuse .tooDeep
  | fuel + 1, isLine, mayEnd, found => do
    let finished : Command := Command.inOrder found.reverse
    match ← token fuel { Looking.command with passesLines := !isLine } with
    | .lineBreak =>
      readDocuments fuel
      return finished
    | .ending =>
      readDocuments fuel
      putBack .ending
      return finished
    | t =>
      putBack t
      if mayEnd && t.endsList then return finished
      else
        let c ← readConditions fuel
        let t ← token fuel {}
        let found := (if t.isOperator "&" then .background c else c) :: found
        match t with
        | .ending =>
          readDocuments fuel
          putBack .ending
          return Command.inOrder found.reverse
        | .lineBreak =>
          putBack t
          readList fuel isLine (!isLine) found
        | t =>
          if t.isOperator "&" || t.isOperator ";" then readList fuel isLine (!isLine) found
          else if isLine then reject t none
          else
            putBack t
            return Command.inOrder found.reverse

/-- Pipelines joined by conditions on their outcome, from left to right. -/
def readConditions : Nat → Reader Command
  | 0 => refuse .tooDeep
  | fuel + 1 => do readMoreConditions fuel (← readPipeline fuel {})

/-- The pipelines after the first. -/
def readMoreConditions : Nat → Command → Reader Command
  | 0, _ => refuse .tooDeep
  | fuel + 1, first => do
    let t ← token fuel {}
    if t.isOperator "&&" then
      readMoreConditions fuel (.both first (← readPipeline fuel .later))
    else if t.isOperator "||" then
      readMoreConditions fuel (.either first (← readPipeline fuel .later))
    else
      putBack t
      return first

/-- A pipeline, which may be negated as a whole. -/
def readPipeline : Nat → Looking → Reader Command
  | 0, _ => refuse .tooDeep
  | fuel + 1, looking => do
    let t ← token fuel looking
    if t.isKeyword "!" then return .negated (← readStages fuel .command)
    else
      putBack t
      readStages fuel {}

/-- The stages of a pipeline. -/
def readStages : Nat → Looking → Reader Command
  | 0, _ => refuse .tooDeep
  | fuel + 1, looking => do
    let first ← readCommand fuel looking
    let t ← token fuel {}
    if t.isOperator "|" then return .pipe first (← readStages fuel .later)
    else
      putBack t
      return first

/-- The target of a redirection, read after its operator. -/
def readTarget : Nat → Nat → String → Reader Redirection
  | 0, _, _ => refuse .tooDeep
  | fuel + 1, channel, op => do
    let isDocument := op == "<<" || op == "<<-"
    match ← token fuel { mark := isDocument } with
    | .word w =>
      if isDocument then
        let s ← get
        let d : Announcement :=
          { index := s.announced, mark := (String.join (w.map Piece.plainText)).toList
            dropsTabs := op == "<<-", isPlain := Word.isQuoted w }
        set { s with announced := s.announced + 1, awaited := s.awaited ++ [d] }
        return .to channel "<<" (((s.known.find? (·.1 == d.index)).map (·.2)).getD [])
      else return .to channel op w
    | t => reject t none

/-- The redirections behind a command. -/
def readRedirections : Nat → Looking → Reader (List Redirection)
  | 0, _ => refuse .tooDeep
  | fuel + 1, looking => do
    match ← token fuel looking with
    | .redirection channel op =>
      let first ← readTarget fuel channel op
      return first :: (← readRedirections fuel {})
    | t =>
      putBack t
      return []

/-- A simple command or a definition, on top of what was read so far of it. -/
def readSimple : Nat → Nat → List (String × Word) → List Word → List Redirection → Reader Command
  | 0, _, _, _, _ => refuse .tooDeep
  | fuel + 1, line, assignments, words, redirections => do
    match ← token fuel { aliases := words.isEmpty } with
    | .word w =>
      match words, Word.assignment? w with
      | [], some a => readSimple fuel line (a :: assignments) words redirections
      | _, _ => readSimple fuel line assignments (w :: words) redirections
    | .redirection channel op =>
      let r ← readTarget fuel channel op
      readSimple fuel line assignments words (r :: redirections)
    | t =>
      match t.isOperator "(", assignments, words, redirections with
      | true, [], [w], [] =>
        expectOperator fuel ")"
        match (Word.bare? w).filter fun name => isName name && !specialCommands.contains name with
        | none => refuse .functionName
        | some name => return .define name (← readCommand fuel .later)
      | _, _, _, _ =>
        putBack t
        let c := Command.simple line assignments.reverse words.reverse
        return c.redirect redirections.reverse

/-- The branches of a condition, from the condition on. -/
def readBranches : Nat → Reader Command
  | 0 => refuse .tooDeep
  | fuel + 1 => do
    let condition ← readList fuel false false []
    expectKeyword fuel {} "then"
    let positive ← readList fuel false false []
    let t ← token fuel {}
    if t.isKeyword "elif" then return .choose condition positive (← readBranches fuel)
    else if t.isKeyword "else" then
      let negative ← readList fuel false false []
      expectKeyword fuel {} "fi"
      return .choose condition positive negative
    else
      putBack t
      expectKeyword fuel {} "fi"
      return .choose condition positive .empty

/-- A loop from its condition on. -/
def readLoop : Nat → Bool → Reader Command
  | 0, _ => refuse .tooDeep
  | fuel + 1, wanted => do
    let condition ← readList fuel false false []
    expectKeyword fuel {} "do"
    let body ← readList fuel false false []
    expectKeyword fuel {} "done"
    return .loop wanted condition body

/-- The words of a loop, up to the end of the line or a semicolon. -/
def readWords : Nat → Reader (List Word)
  | 0 => refuse .tooDeep
  | fuel + 1 => do
    match ← token fuel {} with
    | .word w => return w :: (← readWords fuel)
    | t => if t.isBreak || t.isOperator ";" then return [] else reject t none

/-- A loop over words, read after its first word. -/
def readEach : Nat → Reader Command
  | 0 => refuse .tooDeep
  | fuel + 1 => do
    let name? := match ← token fuel {} with
      | .word w => (Word.bare? w).filter isName
      | _ => none
    match name? with
    | none => refuse .loopName
    | some name =>
      let t ← token fuel .later
      let words ← if t.isKeyword "in" then do pure (some (← readWords fuel))
        else do
          if !t.isOperator ";" then putBack t
          pure none
      expectKeyword fuel .later "do"
      let body ← readList fuel false false []
      expectKeyword fuel {} "done"
      return .each name words body

/-- The patterns of an arm from a token on, with bars between them, through the closing
parenthesis. -/
def readPatterns : Nat → Token → Reader (List Word)
  | 0, _ => refuse .tooDeep
  | fuel + 1, first => do
    let pattern ← match first with
      | .word w => pure w
      | .keyword name => pure [Piece.text false name]
      | t => reject t (some "word")
    let t ← token fuel {}
    if t.isOperator "|" then return pattern :: (← readPatterns fuel (← token fuel {}))
    else if t.isOperator ")" then return [pattern]
    else reject t (some "\")\"")

/-- The arms of a selection. -/
def readArms : Nat → Reader Command
  | 0 => refuse .tooDeep
  | fuel + 1 => do
    let t ← token fuel { passesLines := true, keywords := true }
    if t.isKeyword "esac" then return .empty
    else
      let first ← if t.isOperator "(" then token fuel {} else pure t
      let patterns ← readPatterns fuel first
      let body ← readList fuel false true []
      let t ← token fuel { passesLines := true, keywords := true }
      if t.isKeyword "esac" then return .arm patterns body .empty
      else if t.isOperator ";;" then return .arm patterns body (← readArms fuel)
      else reject t (some "\";;\"")

/-- A selection, read after its first word. -/
def readSelection : Nat → Reader Command
  | 0 => refuse .tooDeep
  | fuel + 1 => do
    match ← token fuel {} with
    | .word w =>
      expectKeyword fuel .later "in"
      return .select w (← readArms fuel)
    | t => reject t (some "word")

/-- A single command with its redirections. -/
def readCommand : Nat → Looking → Reader Command
  | 0, _ => refuse .tooDeep
  | fuel + 1, looking => do
    let line := (← get).line
    let finish (c : Command) : Reader Command := do
      return .numbered line (c.redirect (← readRedirections fuel .command))
    match ← token fuel looking with
    | .keyword "if" => finish (← readBranches fuel)
    | .keyword "while" => finish (← readLoop fuel true)
    | .keyword "until" => finish (← readLoop fuel false)
    | .keyword "for" => finish (← readEach fuel)
    | .keyword "case" => finish (← readSelection fuel)
    | .keyword "\x7b" =>
      let body ← readList fuel false false []
      expectKeyword fuel {} "\x7d"
      finish (.numbered line body)
    | .operator "(" =>
      let body ← readList fuel false false []
      expectOperator fuel ")"
      finish (.subshell body)
    | .word w =>
      putBack (.word w)
      readSimple fuel (← get).line [] [] []
    | .redirection channel op =>
      putBack (.redirection channel op)
      readSimple fuel (← get).line [] [] []
    | t => reject t none

end

/-- A bound on the steps that reading a text takes. -/
def bound (s : Source) : Nat :=
  let texts := (s.aliases.map fun (_, text) => text.length + 1).foldl (· + ·) 0
  16 * (s.rest.length + 1) * Nat.pow (texts + 1) 2 + 64

/-- Reads a line with the documents that are known; how often it may be read again to find more of
them is bounded. -/
def readLine : Nat → Source → Except Misreading (Command × Source)
  | 0, s => throw { line := s.line, fault := .tooDeep }
  | again + 1, s => do
    let (c, after) ← (readList (bound s) true false []).run s
    if after.documents.isEmpty || again = 0 then return (c, after)
    else readLine (min again after.documents.length) { s with known := after.documents }

end Reader

/-- Reads the next line of commands. -/
def Source.next (s : Source) : Except Misreading (Command × Source) :=
  Reader.readLine 4
    { rest := s.rest, line := s.line, aliases := s.aliases, inUse := s.inUse }

end MarkerDoc.Shell
