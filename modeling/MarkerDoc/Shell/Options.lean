import MarkerDoc.Shell.Machine

/-!
# Options of programs

Options are single letters behind a hyphen or words behind two.  A letter may have a value, which
follows it directly or is the next argument.  Options and operands may be mixed, and two hyphens
end the options.
-/

namespace MarkerDoc.Shell

/-- The options and operands of a program. -/
structure Options where
  given : List (Char × String) := []
  operands : List String := []

namespace Options

def has (o : Options) (c : Char) : Bool :=
  o.given.any (·.1 == c)

/-- The last value that was given. -/
def value? (o : Options) (c : Char) : Option String :=
  (o.given.reverse.find? (·.1 == c)).map (·.2)

/-- All values that were given. -/
def values (o : Options) (c : Char) : List String :=
  o.given.filterMap fun (d, v) => if d == c then some v else none

/-- The last of some options that was given. -/
def last? (o : Options) (cs : List Char) : Option Char :=
  (o.given.reverse.find? fun (c, _) => cs.contains c).map (·.1)

def add (o : Options) (c : Char) (value : String) : Options :=
  { o with given := o.given ++ [(c, value)] }

/-- Whether a letter is an option, and whether it has a value; the letters are followed by a colon
if they have one. -/
def lookUp? (letters : List Char) (c : Char) : Option Bool :=
  match letters with
  | d :: ':' :: rest => if c == d then some true else lookUp? rest c
  | d :: rest => if c == d then some false else lookUp? rest c
  | [] => none

/-- Reads a group of letters; the flag says whether the value of the last one is still to come. -/
def readGroup (letters : List Char) (o : Options) :
    List Char → Except String (Options × Option Char)
  | [] => .ok (o, none)
  | c :: cs =>
    match lookUp? letters c with
    | none => .error ("invalid option -- " ++ inQuotes (String.ofList [c]))
    | some false => readGroup letters (o.add c "") cs
    | some true => if cs.isEmpty then .ok (o, some c) else .ok (o.add c (String.ofList cs), none)

/-- Reads arguments.  Where `mixed` does not hold, the first operand ends the options. -/
def readFrom (mixed : Bool) (letters : List Char) (words : List (String × Char)) (o : Options) :
    List String → Except String Options
  | [] => .ok o
  | arg :: rest =>
    if arg = "--" then .ok { o with operands := o.operands ++ rest }
    else
      match arg.toList with
      | '-' :: '-' :: name =>
        let key := String.ofList (name.takeWhile (· != '='))
        let inline? := (name.drop key.length).tail?.map String.ofList
        let exact := words.filter (·.1 == key)
        let found := if exact.isEmpty then words.filter (Text.startsWith key ·.1) else exact
        match found with
        | (_, c) :: more =>
          if !more.all (·.2 == c) then
            .error ("option " ++ inQuotes ("--" ++ key) ++ " is ambiguous")
          else
            match lookUp? letters c, inline?, rest with
            | some true, some v, rest => readFrom mixed letters words (o.add c v) rest
            | some true, none, v :: rest => readFrom mixed letters words (o.add c v) rest
            | some true, none, [] =>
              .error ("option " ++ inQuotes ("--" ++ key) ++ " requires an argument")
            | _, some v, rest => readFrom mixed letters words (o.add c v) rest
            | _, none, rest => readFrom mixed letters words (o.add c "") rest
        | [] => .error ("unrecognized option " ++ inQuotes arg)
      | '-' :: c :: cs =>
        match readGroup letters o (c :: cs), rest with
        | .error e, _ => .error e
        | .ok (o, none), rest => readFrom mixed letters words o rest
        | .ok (o, some c), v :: rest => readFrom mixed letters words (o.add c v) rest
        | .ok (_, some c), [] =>
          .error ("option requires an argument -- " ++ inQuotes (String.ofList [c]))
      | _ =>
        if mixed then
          readFrom mixed letters words { o with operands := o.operands ++ [arg] } rest
        else .ok { o with operands := o.operands ++ arg :: rest }

/-- Reads arguments in which options and operands may be mixed. -/
def read (letters : String) (words : List (String × Char)) (args : List String) :
    Except String Options :=
  readFrom true letters.toList words {} args

/-- Reads arguments whose first operand ends the options. -/
def readFront (letters : String) (words : List (String × Char)) (args : List String) :
    Except String Options :=
  readFrom false letters.toList words {} args

end Options

/-- Runs a program on its options, or complains about them. -/
def withOptions (program letters : String) (words : List (String × Char)) (fault : Nat)
    (args : List String) (run : Options → Act Nat) : Act Nat := do
  match Options.read letters words args with
  | .ok o => run o
  | .error e =>
    complain (program ++ ": " ++ e)
    failWith ("Try " ++ inQuotes (program ++ " --help") ++ " for more information.") fault

end MarkerDoc.Shell
