import MarkerDoc.Text.Basic

/-!
# Values of the settings format

Settings are written in TOML.  Values are read from the front of a list of characters, which gives
the value and what follows it, or nothing if no value stands there.

Of the kinds of values that the format has, only texts, whole numbers, arrays and tables can be a
setting, so fractions, dates and times are checked and kept as they are written.  A table inside a
line is kept as the list of its dotted keys with their values.  Arrays and tables may be nested, and
keys may have parts, only up to a limit.
-/

namespace MarkerDoc.Toml

inductive Value where
  | string (text : String)
  | integer (n : Int)
  | truth (b : Bool)
  /-- A number with a fraction or an exponent, infinity, or no number at all. -/
  | fraction (spelling : String)
  /-- A date, a time of day, or both. -/
  | moment (spelling : String)
  | array (items : List Value)
  | table (fields : List (List String × Value))

def isSpace (c : Char) : Bool :=
  c == ' ' || c == '\t'

def skipSpace (cs : List Char) : List Char :=
  cs.dropWhile isSpace

/-- A character that may stand in a comment. -/
def isCommentChar (c : Char) : Bool :=
  c == '\t' || (0x20 ≤ c.toNat && c.toNat != 0x7F)

/-- What follows a line break at the head of the text. -/
def afterNewline? : List Char → Option (List Char)
  | '\n' :: cs => some cs
  | '\r' :: '\n' :: cs => some cs
  | _ => none

/-- Skips blanks, line breaks and comments between the parts of an array; `inComment` says whether
a comment is under way. -/
def skipFillerFrom (inComment : Bool) : List Char → Option (List Char)
  | [] => some []
  | c :: cs =>
    if c = '\n' then skipFillerFrom false cs
    else if c = '\r' then
      match cs with
      | '\n' :: _ => skipFillerFrom inComment cs
      | _ => none
    else if inComment then if isCommentChar c then skipFillerFrom true cs else none
    else if isSpace c then skipFillerFrom false cs
    else if c = '#' then skipFillerFrom true cs
    else some (c :: cs)

/-- Skips blanks, line breaks and comments between the parts of an array. -/
def skipFiller (cs : List Char) : Option (List Char) :=
  skipFillerFrom false cs

/-- The value of a digit in a base up to sixteen. -/
def digit? (base : Nat) (c : Char) : Option Nat :=
  let n := c.toNat
  let value :=
    if 0x30 ≤ n && n ≤ 0x39 then n - 0x30
    else if 0x41 ≤ n && n ≤ 0x46 then n - 0x41 + 10
    else if 0x61 ≤ n && n ≤ 0x66 then n - 0x61 + 10
    else 16
  if value < base then some value else none

/-- Reads digits, with single underscores between them, on top of the number read so far.
`afterDigit` says whether the last character was a digit. -/
def numeral? (base : Nat) (afterDigit : Bool) (n : Nat) : List Char → Option Nat
  | [] => if afterDigit then some n else none
  | c :: cs =>
    if c = '_' then if afterDigit then numeral? base false n cs else none
    else (digit? base c).bind fun d => numeral? base true (n * base + d) cs

/-- The largest whole number that the format can hold. -/
def maxInteger : Nat := Nat.pow 2 63 - 1

/-- Digits in base ten, without a leading zero. -/
def decimal? : List Char → Option Nat
  | ['0'] => some 0
  | '0' :: _ => none
  | cs => numeral? 10 false 0 cs

/-- A number that the format can hold. -/
def positive? (n : Option Nat) : Option Int :=
  n.bind fun n => if n ≤ maxInteger then some (n : Int) else none

/-- The whole number that a word spells. -/
def integer? : List Char → Option Int
  | '0' :: 'x' :: cs => positive? (numeral? 16 false 0 cs)
  | '0' :: 'o' :: cs => positive? (numeral? 8 false 0 cs)
  | '0' :: 'b' :: cs => positive? (numeral? 2 false 0 cs)
  | '+' :: cs => positive? (decimal? cs)
  | '-' :: cs =>
    (decimal? cs).bind fun n => if n ≤ maxInteger + 1 then some (-(n : Int)) else none
  | cs => positive? (decimal? cs)

/-- Digits with single underscores between them, and what follows them. -/
def digits? : List Char → Option (List Char × List Char)
  | [] => none
  | c :: cs =>
    if c.isDigit then
      match cs with
      | '_' :: rest => (digits? rest).map fun (more, rest) => (c :: more, rest)
      | d :: rest =>
        if d.isDigit then (digits? (d :: rest)).map fun (more, rest) => (c :: more, rest)
        else some ([c], d :: rest)
      | [] => some ([c], [])
    else none

/-- A whole number with digits as they stand, without a leading zero, and what follows it. -/
def wholePart? : List Char → Option (List Char × List Char)
  | '0' :: cs => some (['0'], cs)
  | cs => digits? cs

/-- The digits after a decimal point, if there is one. -/
def decimalPart? : List Char → Option (List Char × List Char)
  | '.' :: cs => digits? cs
  | cs => some ([], cs)

/-- The exponent at the head of a text, if there is one. -/
def exponent? : List Char → Option (Int × List Char)
  | c :: cs =>
    if c = 'e' || c = 'E' then
      let (negative, cs) := match cs with
        | '-' :: rest => (true, rest)
        | '+' :: rest => (false, rest)
        | rest => (false, rest)
      (digits? cs).bind fun (found, rest) =>
        (numeral? 10 false 0 found).map fun n => (if negative then -(n : Int) else n, rest)
    else some (0, c :: cs)
  | [] => some (0, [])

/-- Whether `digits` times ten to the power `exponent` is too large for a double-precision number,
also after rounding. -/
def overflows (digits : Nat) (exponent : Int) : Bool :=
  let size : Int := (Nat.toDigits 10 digits).length + exponent
  if digits = 0 || size < 300 then false
  else if 320 < size then true
  else
    let limit := Nat.pow 2 1024 - Nat.pow 2 970
    match exponent with
    | .ofNat e => limit ≤ digits * Nat.pow 10 e
    | .negSucc e => limit * Nat.pow 10 (e + 1) ≤ digits

/-- Whether a word spells a number with a decimal point or an exponent.  A positive one must not be
too large. -/
def isFraction (word : List Char) : Bool :=
  let (negative, unsigned) := match word with
    | '-' :: cs => (true, cs)
    | '+' :: cs => (false, cs)
    | cs => (false, cs)
  if unsigned = "inf".toList || unsigned = "nan".toList then true
  else
    let parts := do
      let (whole, rest) ← wholePart? unsigned
      let (decimals, rest') ← decimalPart? rest
      let (exponent, rest'') ← exponent? rest'
      if rest''.isEmpty && !rest.isEmpty then
        let digits ← numeral? 10 false 0 (whole ++ decimals)
        some (digits, exponent - (decimals.length : Int))
      else none
    match parts with
    | some (digits, exponent) => negative || !overflows digits exponent
    | none => false

/-- The number of exactly `n` digits at the head of a text. -/
def fixed? (n : Nat) (cs : List Char) : Option (Nat × List Char) :=
  let word := cs.take n
  if word.length = n && word.all Char.isDigit then
    (numeral? 10 false 0 word).map fun k => (k, cs.drop n)
  else none

def isLeapYear (year : Nat) : Bool :=
  year % 4 == 0 && (year % 100 != 0 || year % 400 == 0)

def daysIn (year month : Nat) : Nat :=
  if month = 2 then if isLeapYear year then 29 else 28
  else if [4, 6, 9, 11].contains month then 30
  else 31

/-- What follows the date at the head of a text. -/
def afterDate? (cs : List Char) : Option (List Char) := do
  let (year, rest) ← fixed? 4 cs
  let (month, rest) ← fixed? 2 (← Text.afterLead? ['-'] rest)
  let (day, rest) ← fixed? 2 (← Text.afterLead? ['-'] rest)
  if 1 ≤ month && month ≤ 12 && 1 ≤ day && day ≤ daysIn year month then some rest else none

/-- What follows the hour and minute at the head of a text. -/
def afterMinute? (cs : List Char) : Option (List Char) := do
  let (hour, rest) ← fixed? 2 cs
  let (minute, rest) ← fixed? 2 (← Text.afterLead? [':'] rest)
  if hour ≤ 23 && minute ≤ 59 then some rest else none

/-- What follows the time of day at the head of a text; the sixtieth second may be a leap second. -/
def afterTime? (cs : List Char) : Option (List Char) := do
  let (second, rest) ← fixed? 2 (← Text.afterLead? [':'] (← afterMinute? cs))
  if second ≤ 60 then
    match rest with
    | '.' :: after =>
      if (after.head?.map Char.isDigit).getD false then some (after.dropWhile Char.isDigit)
      else none
    | rest => some rest
  else none

/-- Whether a word is nothing but the distance of a time zone, which may be missing. -/
def isOffset : List Char → Bool
  | [] => true
  | ['Z'] | ['z'] => true
  | c :: cs => (c == '+' || c == '-') && (afterMinute? cs).any List.isEmpty

/-- Whether a word is a time of day with an optional time zone. -/
def isZonedTime (word : List Char) : Bool :=
  (afterTime? word).any isOffset

/-- Whether a word spells a date, a time of day, or both. -/
def isMoment (word : List Char) : Bool :=
  match afterDate? word with
  | some [] => true
  | some (c :: cs) => (c == 'T' || c == 't') && isZonedTime cs
  | none => (afterTime? word).any List.isEmpty

/-- A character of a word that is not quoted. -/
def isWordChar (c : Char) : Bool :=
  c.isAlphanum || c == '_' || c == '-' || c == '+' || c == '.' || c == ':'

/-- The character with a code point written in a number of hexadecimal digits. -/
def codePoint? (digits : Nat) (cs : List Char) : Option (Char × List Char) := do
  let word := cs.take digits
  if word.length = digits then
    let n ← word.foldlM (fun n c => (digit? 16 c).map (n * 16 + ·)) 0
    if n.isValidChar then some (Char.ofNat n, cs.drop digits) else none
  else none

/-- The character that an escape stands for, read after the backslash. -/
def escape? : List Char → Option (Char × List Char)
  | 'b' :: cs => some (Char.ofNat 8, cs)
  | 't' :: cs => some ('\t', cs)
  | 'n' :: cs => some ('\n', cs)
  | 'f' :: cs => some (Char.ofNat 12, cs)
  | 'r' :: cs => some ('\r', cs)
  | '"' :: cs => some ('"', cs)
  | '\\' :: cs => some ('\\', cs)
  | 'u' :: cs => codePoint? 4 cs
  | 'U' :: cs => codePoint? 8 cs
  | _ => none

/-- Puts a character in front of a text that was found. -/
def pushChar (c : Char) (r : Option (List Char × List Char)) : Option (List Char × List Char) :=
  r.map fun (text, rest) => (c :: text, rest)

/-- The text of a string in double quotes, read after the opening quote. -/
def basicText : Nat → List Char → Option (List Char × List Char)
  | 0, _ => none
  | _, [] => none
  | fuel + 1, c :: cs =>
    if c = '"' then some ([], cs)
    else if c = '\\' then (escape? cs).bind fun (e, rest) => pushChar e (basicText fuel rest)
    else if isCommentChar c then pushChar c (basicText fuel cs)
    else none

/-- Skips blanks and line breaks. -/
def skipBlankLines : List Char → List Char
  | [] => []
  | c :: cs =>
    if isSpace c || c == '\n' || (c == '\r' && cs.head? == some '\n') then skipBlankLines cs
    else c :: cs

/-- What follows a backslash at the end of a line: all blanks and line breaks go with it. -/
def afterLineEnd? (cs : List Char) : Option (List Char) :=
  (afterNewline? (skipSpace cs)).map skipBlankLines

/-- The quotes at the head of the text, and the text after them. -/
def quoteRun (quote : Char) (cs : List Char) : Nat × List Char :=
  ((cs.takeWhile (· == quote)).length, cs.dropWhile (· == quote))

/-- The text of a string over several lines, read after the opening quotes.  Up to two quotes may
stand right before the three that close it. -/
def blockText (quote : Char) (escapes : Bool) : Nat → List Char → Option (List Char × List Char)
  | 0, _ => none
  | _, [] => none
  | fuel + 1, c :: cs =>
    if c = quote then
      let (n, rest) := quoteRun quote (c :: cs)
      if n < 3 then pushChar c (blockText quote escapes fuel cs)
      else if n ≤ 5 then some (List.replicate (n - 3) quote, rest)
      else none
    else if c = '\n' then pushChar c (blockText quote escapes fuel cs)
    else if c = '\r' then
      (afterNewline? (c :: cs)).bind fun rest =>
        pushChar '\n' (blockText quote escapes fuel rest)
    else if escapes && c = '\\' then
      match afterLineEnd? cs with
      | some rest => blockText quote escapes fuel rest
      | none =>
        (escape? cs).bind fun (e, rest) => pushChar e (blockText quote escapes fuel rest)
    else if isCommentChar c then pushChar c (blockText quote escapes fuel cs)
    else none

/-- The text of a string in single quotes, read after the opening quote. -/
def literalText (cs : List Char) : Option (List Char × List Char) :=
  let text := cs.takeWhile fun c => isCommentChar c && c != Char.ofNat 0x27
  match cs.drop text.length with
  | c :: rest => if c = Char.ofNat 0x27 then some (text, rest) else none
  | [] => none

/-- A string over several lines does not include a line break right after its opening quotes. -/
def blockString (quote : Char) (escapes : Bool) (cs : List Char) : Option (String × List Char) :=
  let body := (afterNewline? cs).getD cs
  (blockText quote escapes (body.length + 1) body).map fun (text, rest) =>
    (String.ofList text, rest)

/-- A string on one line in either kind of quotes. -/
def lineString? : List Char → Option (String × List Char)
  | '"' :: cs => (basicText (cs.length + 1) cs).map fun (text, rest) => (String.ofList text, rest)
  | c :: cs =>
    if c = Char.ofNat 0x27 then
      (literalText cs).map fun (text, rest) => (String.ofList text, rest)
    else none
  | [] => none

/-- A string in any kind of quotes. -/
def string? (cs : List Char) : Option (String × List Char) :=
  match Text.afterLead? "\"\"\"".toList cs with
  | some body => blockString '"' true body
  | none =>
    match Text.afterLead? "'''".toList cs with
    | some body => blockString (Char.ofNat 0x27) false body
    | none => lineString? cs

/-- A character of a key without quotes. -/
def isKeyChar (c : Char) : Bool :=
  c.isAlphanum || c == '_' || c == '-'

/-- One part of a key. -/
def keyPart? (cs : List Char) : Option (String × List Char) :=
  let bare := cs.takeWhile isKeyChar
  if bare.isEmpty then lineString? cs else some (String.ofList bare, cs.drop bare.length)

/-- The parts of a key with dots between them. -/
def keyParts? : Nat → List Char → Option (List String × List Char)
  | 0, _ => none
  | fuel + 1, cs => do
    let (part, rest) ← keyPart? cs
    match skipSpace rest with
    | '.' :: after =>
      let (parts, rest) ← keyParts? fuel (skipSpace after)
      some (part :: parts, rest)
    | rest => some ([part], rest)

/-- How many arrays and tables may be nested, and how many parts a key may have. -/
def maxDepth : Nat := 79

/-- A key of one or more parts. -/
def key? (cs : List Char) : Option (List String × List Char) :=
  (keyParts? (cs.length + 1) cs).filter fun (parts, _) => parts.length ≤ maxDepth

/-- Whether a key can stand beside the keys that a table has: none leads through another. -/
def fits (key : List String) (fields : List (List String × Value)) : Bool :=
  fields.all fun f => !key.isPrefixOf f.1 && !f.1.isPrefixOf key

/-- The value that a word without quotes spells. -/
def word? (word : List Char) : Option Value :=
  if word = "true".toList then some (.truth true)
  else if word = "false".toList then some (.truth false)
  else
    match integer? word with
    | some n => some (.integer n)
    | none =>
      if isFraction word then some (.fraction (String.ofList word))
      else if isMoment word then some (.moment (String.ofList word))
      else none

/-- The value without quotes at the head of the text.  A single space may stand between a date and
the time of day. -/
def bareValue? (cs : List Char) : Option (Value × List Char) :=
  let word := cs.takeWhile isWordChar
  let rest := cs.drop word.length
  let second := (rest.drop 1).takeWhile isWordChar
  if rest.head? = some ' ' && (afterDate? word).any List.isEmpty && isZonedTime second then
    some (.moment (String.ofList (word ++ [' '] ++ second)), rest.drop (1 + second.length))
  else (word? word).map fun v => (v, rest)

mutual

/-- The value at the head of the text, where `room` is the number of arrays and tables that may
still be nested. -/
def value? : Nat → Nat → List Char → Option (Value × List Char)
  | 0, _, _ => none
  | _, _, [] => none
  | fuel + 1, room, c :: cs =>
    if c = '[' then
      if room = 0 then none
      else (items? fuel (room - 1) cs).map fun (items, rest) => (.array items, rest)
    else if c = Char.ofNat 0x7B then
      if room = 0 then none
      else
        match skipSpace cs with
        | [] => none
        | d :: rest =>
          if d = Char.ofNat 0x7D then some (.table [], rest)
          else
            (fields? fuel (room - 1) [] (d :: rest)).map fun (fields, rest) => (.table fields, rest)
    else if c = '"' || c = Char.ofNat 0x27 then
      (string? (c :: cs)).map fun (text, rest) => (.string text, rest)
    else bareValue? (c :: cs)

/-- The items of an array, read after its opening bracket or after a comma. -/
def items? : Nat → Nat → List Char → Option (List Value × List Char)
  | 0, _, _ => none
  | fuel + 1, room, cs => do
    match ← skipFiller cs with
    | ']' :: rest => some ([], rest)
    | start =>
      let (item, rest) ← value? fuel room start
      match ← skipFiller rest with
      | ']' :: rest => some ([item], rest)
      | ',' :: rest =>
        let (items, rest) ← items? fuel room rest
        some (item :: items, rest)
      | _ => none

/-- The fields of a table inside a line, read from a key on, after the fields read so far. -/
def fields? : Nat → Nat → List (List String × Value) → List Char →
    Option (List (List String × Value) × List Char)
  | 0, _, _, _ => none
  | fuel + 1, room, known, cs => do
    let (key, rest) ← key? cs
    match rest with
    | '=' :: rest =>
      let (value, rest) ← value? fuel room (skipSpace rest)
      if fits key known then
        match skipSpace rest with
        | ',' :: rest => fields? fuel room (known ++ [(key, value)]) (skipSpace rest)
        | c :: rest => if c = Char.ofNat 0x7D then some (known ++ [(key, value)], rest) else none
        | [] => none
      else none
    | _ => none

end

/-- The value at the head of the text. -/
def readValue? (cs : List Char) : Option (Value × List Char) :=
  value? (cs.length + 1) maxDepth cs

end MarkerDoc.Toml
