import MarkerDoc.Toml.Value

/-!
# Documents of the settings format

A document is a sequence of lines: headers that open a table or the next table of an array, and
keys with their values, which belong to the table opened last.  It is kept as the list of all
places that have been defined, each with the way it came about, because that decides what may be
added to it later:

* a value is complete;
* a table with a header of its own is opened once, and dotted keys do not reach into it;
* a table that a longer header only led through may still be opened;
* a table that dotted keys led through may only grow by dotted keys.
-/

namespace MarkerDoc.Toml

/-- One step to a place: the name of a key, or a table of an array by its number. -/
inductive Step where
  | name (name : String)
  | index (n : Nat)
deriving DecidableEq

/-- How a place came about. -/
inductive Definition where
  | value (v : Value)
  /-- A table with a header of its own. -/
  | headed
  /-- A table that a header led through. -/
  | passed
  /-- A table that a dotted key led through. -/
  | dotted
  /-- An array of tables, and how many it has. -/
  | tables (count : Nat)

structure Document where
  /-- The place of the table that was opened last. -/
  current : List Step := []
  defined : List (List Step × Definition) := []

namespace Document

def find? (d : Document) (place : List Step) : Option Definition :=
  (d.defined.find? (·.1 == place)).map (·.2)

/-- Adds a definition, in place of one at the same place. -/
def define (d : Document) (place : List Step) (definition : Definition) : Document :=
  { d with defined := d.defined.filter (·.1 != place) ++ [(place, definition)] }

/-- Goes from a place through the parts of a header, making the tables that are missing. -/
def pass (d : Document) (place : List Step) : List String → Option (Document × List Step)
  | [] => some (d, place)
  | part :: parts =>
    let next := place ++ [.name part]
    match d.find? next with
    | none => (d.define next .passed).pass next parts
    | some (.value _) => none
    | some (.tables count) => d.pass (next ++ [.index (count - 1)]) parts
    | some _ => d.pass next parts

/-- Goes from a place through the parts of a dotted key, making the tables that are missing. -/
def passDotted (d : Document) (place : List Step) : List String → Option (Document × List Step)
  | [] => some (d, place)
  | part :: parts =>
    let next := place ++ [.name part]
    match d.find? next with
    | none => (d.define next .dotted).passDotted next parts
    | some .dotted => d.passDotted next parts
    | some _ => none

/-- Opens the table of a header. -/
def openTable (d : Document) (key : List String) : Option Document := do
  let last ← key.getLast?
  let (d, parent) ← d.pass [] key.dropLast
  let place := parent ++ [.name last]
  match d.find? place with
  | none | some .passed => some { d.define place .headed with current := place }
  | some _ => none

/-- Opens the next table of an array of tables. -/
def openNext (d : Document) (key : List String) : Option Document := do
  let last ← key.getLast?
  let (d, parent) ← d.pass [] key.dropLast
  let place := parent ++ [.name last]
  match d.find? place with
  | none => some { d.define place (.tables 1) with current := place ++ [.index 0] }
  | some (.tables n) =>
    some { d.define place (.tables (n + 1)) with current := place ++ [.index n] }
  | some _ => none

/-- Gives a key of the current table its value. -/
def assign (d : Document) (key : List String) (value : Value) : Option Document := do
  let last ← key.getLast?
  let (d, parent) ← d.passDotted d.current key.dropLast
  let place := parent ++ [.name last]
  match d.find? place with
  | none => some (d.define place (.value value))
  | some _ => none

/-- What follows the rest of a line that may hold no more than a comment. -/
def afterLine? (cs : List Char) : Option (List Char) :=
  let rest := match skipSpace cs with
    | '#' :: after => after.dropWhile isCommentChar
    | rest => rest
  match rest with
  | [] => some []
  | rest => afterNewline? rest

/-- A header, read after its opening brackets: its key, and what follows the closing brackets. -/
def header? (closing : String) (cs : List Char) : Option (List String × List Char) := do
  let (key, rest) ← key? (skipSpace cs)
  let rest ← Text.afterLead? closing.toList rest
  some (key, rest)

/-- Reads the lines of a text on top of what has been defined. -/
def readFrom : Nat → Document → List Char → Option Document
  | 0, _, _ => none
  | fuel + 1, d, cs =>
    match skipSpace cs with
    | [] => some d
    | '[' :: '[' :: rest => do
      let (key, rest) ← header? "]]" rest
      let d ← d.openNext key
      readFrom fuel d (← afterLine? rest)
    | '[' :: rest => do
      let (key, rest) ← header? "]" rest
      let d ← d.openTable key
      readFrom fuel d (← afterLine? rest)
    | c :: rest =>
      if c = '#' || c = '\n' || c = '\r' then do
        readFrom fuel d (← afterLine? (c :: rest))
      else do
        let (key, rest) ← key? (c :: rest)
        match rest with
        | '=' :: rest =>
          let (value, rest) ← readValue? (skipSpace rest)
          let d ← d.assign key value
          readFrom fuel d (← afterLine? rest)
        | _ => none

/-- The document that a text spells, if it follows the format.  A byte order mark in front of it
says nothing. -/
def read? (text : String) : Option Document :=
  let cs := match text.toList with
    | c :: cs => if c = Char.ofNat 0xFEFF then cs else c :: cs
    | [] => []
  readFrom (cs.length + 1) {} cs

/-- The names of the steps to a place. -/
def names (place : List Step) : List String :=
  place.filterMap fun
    | .name n => some n
    | .index _ => none

/-- The fields of the table at a place.  A table inside it stands as a field without fields. -/
def fields (d : Document) (place : List Step) : List (List String × Value) :=
  d.defined.filterMap fun (p, definition) =>
    match Text.afterLead? place p, definition with
    | some (s :: rest), .value v => some (names (s :: rest), v)
    | some (s :: rest), _ => some (names (s :: rest), .table [])
    | _, _ => none

/-- The value of a key at the top of the document. -/
def topValue? (d : Document) (name : String) : Option Value :=
  (d.find? [.name name]).map fun
    | .value v => v
    | .tables count => .array (List.replicate count (.table []))
    | _ => .table (d.fields [.name name])

/-- The keys at the top of the document. -/
def topNames (d : Document) : List String :=
  d.defined.filterMap fun (place, _) => (names place).head?

end Document

end MarkerDoc.Toml
