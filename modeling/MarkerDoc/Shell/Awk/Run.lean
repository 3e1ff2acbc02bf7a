import MarkerDoc.Shell.Awk.Reader
import MarkerDoc.Shell.Regex
import MarkerDoc.Shell.Utility.Lines

/-!
# Running programs for records and fields

Values are numbers and texts; a text from the input that looks like a number counts as one.
Because loops need not end, the number of steps is bounded.
-/

namespace MarkerDoc.Shell.Awk

inductive Val where
  | num (x : Float)
  | str (s : String)
  /-- A text from the input, which counts as a number if it looks like one. -/
  | given (s : String)
  | unset

/-- What a name stands for. -/
inductive Slot where
  | scalar (v : Val)
  | array (id : Nat)
  /-- Nothing yet, but an array has been set aside for it. -/
  | open_ (id : Nat)

structure Env where
  machine : Machine
  program : Program
  globals : List (String × Slot) := []
  /-- The names of the functions that are running, the innermost first. -/
  frames : List (List (String × Slot)) := []
  arrays : Array (List (String × Val)) := #[]
  record : String := ""
  fields : List String := []
  /-- What is left of the current file, if one is open. -/
  rest : Option (List Char) := none
  /-- The operands to come. -/
  files : List String := []
  /-- Whether a file among the operands was opened. -/
  opened : Bool := false
  /-- What is left of other files and of the output of commands. -/
  sources : List (String × List Char) := []
  /-- The files that have been written to. -/
  targets : List String := []
  /-- The input of commands that are still to run. -/
  pipes : List (String × String) := []
  /-- The rules whose range is open. -/
  ranges : List Nat := []
  status : Nat := 0
  seed : Nat := 0

/-- Why a program does not go on with the next statement. -/
inductive Flow where
  | next
  | exit
  | leave
  | again
  | result (v : Val)
  | failed (message : String)

abbrev M := ExceptT Flow (StateM Env)

/-! ## Values -/

def isBlank (c : Char) : Bool := c == ' ' || c == '\t' || c == '\n' || c == '\r'

/-- The number that a text begins with. -/
def numberOf (s : String) : Float :=
  ((Decimal.leading? (s.toList.dropWhile isBlank)).map (·.1)).getD 0.0

/-- Whether a text is a finite number as a whole, written with digits. -/
def looksNumeric (s : String) : Bool :=
  match Decimal.leading? (s.toList.dropWhile isBlank) with
  | some (x, rest) => x.isFinite && rest.all isBlank
  | none => false

namespace Val

def toNum : Val → Float
  | .num x => x
  | .str s | .given s => numberOf s
  | .unset => 0.0

def ofBool (b : Bool) : Val := .num (if b then 1.0 else 0.0)

def ofNat (n : Nat) : Val := .num (Decimal.ofInt n)

def isNumeric : Val → Bool
  | .num _ | .unset => true
  | .given s => looksNumeric s
  | .str _ => false

def isTrue : Val → Bool
  | .num x => x != 0.0
  | .str s => s != ""
  | .given s => if looksNumeric s then numberOf s != 0.0 else s != ""
  | .unset => false

end Val

/-- A number as text: whole numbers in full, others by a format. -/
def numberText (format : String) (x : Float) : String :=
  if x == x.floor && x.abs < 18446744073709551616.0 then
    let (a, b) := Decimal.fraction x
    (if Decimal.isNegative x && a != 0 then "-" else "") ++ toString (a / b)
  else
    match readFormat .bare format with
    | [.directive d _ _] => d.real x
    | _ => ({ precision := some 6, kind := 'g' : Directive }).real x

def Val.text (format : String) : Val → String
  | .num x => numberText format x
  | .str s | .given s => s
  | .unset => ""

/-! ## Variables -/

def slot? (env : Env) (name : String) : Option Slot :=
  let own := (env.frames.head?.getD []).find? (·.1 == name)
  (own.or (env.globals.find? (·.1 == name))).map (·.2)

def setSlot (env : Env) (name : String) (s : Slot) : Env :=
  match env.frames with
  | frame :: more =>
    if frame.any (·.1 == name) then
      { env with frames := ((name, s) :: frame.filter (·.1 != name)) :: more }
    else { env with globals := (name, s) :: env.globals.filter (·.1 != name) }
  | [] => { env with globals := (name, s) :: env.globals.filter (·.1 != name) }

/-- The value of a variable that is not special. -/
def plainVar (env : Env) (name : String) : Val :=
  match slot? env name with
  | some (.scalar v) => v
  | _ => .unset

def textVar (env : Env) (name : String) : String :=
  (plainVar env name).text "%.6g"

def numVar (env : Env) (name : String) : Float :=
  (plainVar env name).toNum

/-- The array that a name stands for, which is made if there is none. -/
def arrayId (name : String) : M Nat := do
  let env ← get
  match slot? env name with
  | some (.array id) => return id
  | some (.open_ id) =>
    set (setSlot env name (.array id))
    return id
  | _ =>
    let id := env.arrays.size
    set (setSlot { env with arrays := env.arrays.push [] } name (.array id))
    return id

/-! ## Fields -/

/-- The expression that a text stands for. -/
def regexOf (pattern : String) : M Regex := do
  match Regex.read? { extended := true, escapes := true } pattern with
  | some r => return r
  | none => throw (.failed ("regular expression compile failed: " ++ pattern))

/-- Cuts a text at the matches of an expression. -/
def splitRegex (r : Regex) (text : Array Char) : Nat → Nat → Nat → List String
  | 0, start, _ => [Regex.slice text start text.size]
  | fuel + 1, start, at_ =>
    match r.find? text at_ with
    | none => [Regex.slice text start text.size]
    | some m =>
      if m.stop = m.start then
        if m.stop < text.size then splitRegex r text fuel start (at_ + 1)
        else [Regex.slice text start text.size]
      else Regex.slice text start m.start :: splitRegex r text fuel m.stop m.stop

/-- Cuts a text into fields. -/
def splitText (separator text : String) : M (List String) := do
  if text = "" then return []
  if separator = " " then
    return Text.words (text.map fun c => if isBlank c then ' ' else c)
  else if separator = "" then return text.toList.map fun c => String.ofList [c]
  else if separator.length = 1 && separator != "\\" then
    return Text.splitOn separator text
  else
    let r ← regexOf separator
    let cs := text.toList.toArray
    return splitRegex r cs (cs.size + 1) 0 0

def setFields (fields : List String) : M Unit :=
  modify fun env => { env with fields }

/-- Makes a text the current record. -/
def setRecord (text : String) : M Unit := do
  modify fun env => { env with record := text }
  let env ← get
  let separator := textVar env "FS"
  let paragraph := textVar env "RS" == ""
  if paragraph && separator != " " then
    let lines := Text.splitOn "\n" text
    let parts ← lines.mapM (splitText separator)
    setFields parts.flatten
  else setFields (← splitText separator text)

/-- Puts the record together from its fields. -/
def joinRecord : M Unit :=
  modify fun env => { env with record := Text.joinWith (textVar env "OFS") env.fields }

def resize (n : Nat) (fields : List String) : List String :=
  fields.take n ++ List.replicate (n - fields.length) ""

/-- Ends the program because of something that happened while it ran. -/
def crash {α : Type} (what : String) : M α := do
  let env ← get
  let shown (name : String) : String := name ++ "=" ++ textVar env name
  throw (.failed ("run time error: " ++ what ++ "\n\tFILENAME=\"" ++ textVar env "FILENAME" ++ "\" "
    ++ shown "FNR" ++ " " ++ shown "NR"))

def setVar (name : String) (v : Val) : M Unit := do
  if name = "NF" then
    let n := Decimal.toInt v.toNum
    if n < 0 then crash "negative value assigned to NF"
    modify fun env => { env with fields := resize n.toNat env.fields }
    joinRecord
  else modify fun env => setSlot env name (.scalar v)

def getVar (name : String) : M Val := do
  let env ← get
  if name = "NF" then return .ofNat env.fields.length
  else return plainVar env name

def toText (v : Val) : M String := do
  match v with
  | .num x => return numberText (textVar (← get) "CONVFMT") x
  | v => return v.text ""

/-- The number of the field that a value names. -/
def fieldIndex (v : Val) : M Nat := do
  let n := Decimal.toInt v.toNum
  if n < 0 then crash ("negative field index $" ++ toString n)
  return n.toNat

def setField (n : Nat) (v : Val) : M Unit := do
  let text ← toText v
  if n = 0 then setRecord text
  else
    modify fun env =>
      { env with fields := (resize (max n env.fields.length) env.fields).set (n - 1) text }
    joinRecord

/-! ## Input and output -/

def say (text : String) : M Unit :=
  modify fun env => { env with machine := (env.machine.write 1 text).2 }

/-- Does something to the machine. -/
def onMachine {α : Type} (act : Act α) : M α := do
  let env ← get
  let (a, machine) := act.run env.machine
  set { env with machine }
  return a

/-- Takes a record off a text. -/
def takeRecord (separator : String) (cs : List Char) : M (Option (String × List Char)) := do
  if separator = "" then
    let cs := cs.dropWhile (· == '\n')
    if cs.isEmpty then return none
    else
      let (first, rest) := splitAtGap (cs.length + 1) cs
      return some (String.ofList first, rest)
  else if cs.isEmpty then return none
  else if separator.length = 1 then
    let mark := separator.toList.headD '\n'
    let first := cs.takeWhile (· != mark)
    return some (String.ofList first, (cs.drop first.length).drop 1)
  else
    let r ← regexOf separator
    let text := cs.toArray
    match r.find? text 0 with
    | some m => return some (Regex.slice text 0 m.start, cs.drop m.stop)
    | none => return some (String.ofList (Text.dropEndWhile (· == '\n') cs), [])
where
  /-- Cuts a text at the first empty line. -/
  splitAtGap : Nat → List Char → List Char × List Char
    | 0, cs => ([], cs)
    | _, [] => ([], [])
    | _, '\n' :: '\n' :: rest => ([], rest.dropWhile (· == '\n'))
    | _, ['\n'] => ([], [])
    | fuel + 1, c :: rest =>
      let (a, b) := splitAtGap fuel rest
      (c :: a, b)

/-- A variable that is set by an operand. -/
def assignment? (operand : String) : Option (String × String) :=
  let name := String.ofList (operand.toList.takeWhile (· != '='))
  if name.length < operand.length && isName name then
    some (name, String.ofList (operand.toList.drop (name.length + 1)))
  else none

/-- Opens the next file of the input; whether there is one. -/
def openNext : Nat → M Bool
  | 0 => return false
  | fuel + 1 => do
    let env ← get
    match env.files with
    | [] =>
      if env.opened then return false
      else
        let text ← onMachine (takeAll 0)
        modify fun env => { env with rest := some text.toList, opened := true }
        return true
    | file :: files =>
      set { env with files }
      match assignment? file with
      | some (name, value) =>
        setVar name (.given (unescape .bare value).1)
        openNext fuel
      | none =>
        match ← onMachine (contentOf file) with
        | .ok text =>
          modify fun env => { env with rest := some text.toList, opened := true }
          setVar "FILENAME" (.str file)
          setVar "FNR" (.num 0.0)
          return true
        | .error e =>
          onMachine (complain (match e with
            | .isADirectory => "awk: read error (" ++ reason e ++ ")"
            | _ => "awk: cannot open \"" ++ file ++ "\" (" ++ reason e ++ ")"))
          modify fun env => { env with opened := true, status := 2 }
          throw .exit

/-- The next record of the input. -/
def nextRecord : Nat → M (Option String)
  | 0 => return none
  | fuel + 1 => do
    let env ← get
    match env.rest with
    | none => if ← openNext (env.files.length + 2) then nextRecord fuel else return none
    | some cs =>
      match ← takeRecord (textVar env "RS") cs with
      | some (record, rest) =>
        modify fun env => { env with rest := some rest }
        let up (name : String) : M Unit := do
          let n := numVar (← get) name
          setVar name (.num (n + 1.0))
        up "NR"
        up "FNR"
        return some record
      | none =>
        modify fun env => { env with rest := none }
        if (← get).files.isEmpty then return none else nextRecord fuel

/-- Writes to a file, which is emptied when it is first written to. -/
def writeTo (append : Bool) (path text : String) : M Unit := do
  let env ← get
  match Machine.deviceChannel? path with
  | some channel => set { env with machine := (env.machine.write channel text).2 }
  | none =>
    let old := if append || env.targets.contains path then
        (env.machine.fileText path).toOption.getD "" else ""
    match env.machine.writeFile path (old ++ text) with
    | .ok machine => set { env with machine, targets := path :: env.targets }
    | .error e => throw (.failed ("cannot open " ++ path ++ " for output: " ++ reason e))

/-- Runs a command on what was written for it. -/
def runPipe (call : Caller) (command text : String) : M Nat :=
  onMachine (reading text (call ["sh", "-c", command]))

/-- Ends the writing or reading of a file or command. -/
def close (call : Caller) (name : String) : M Val := do
  let env ← get
  let known := env.targets.contains name || env.sources.any (·.1 == name)
  set { env with targets := env.targets.filter (· != name)
                 sources := env.sources.filter (·.1 != name) }
  match env.pipes.find? (·.1 == name) with
  | some (_, text) =>
    modify fun env => { env with pipes := env.pipes.filter (·.1 != name) }
    let status ← runPipe call name text
    return .ofNat status
  | none => return .num (if known then 0.0 else -1.0)

/-! ## Formats -/

/-- Writes values by a format. -/
def formatVals (format : String) (args : List Val) : M String := do
  let parts := readFormat .bare format
  let mut text := ""
  let mut left := args
  for p in parts do
    match p with
    | .text s => text := text ++ s
    | .broken _ | .ending => pure ()
    | .directive d widthArg precisionArg =>
      let mut d := d
      if widthArg then
        let n := Decimal.toInt (left.headD .unset).toNum
        d := { d with width := n.natAbs, left := d.left || n < 0 }
        left := left.tail
      if precisionArg then
        let n := Decimal.toInt (left.headD .unset).toNum
        d := { d with precision := if n < 0 then none else some n.toNat }
        left := left.tail
      match left with
      | [] => throw (.failed ("not enough arguments passed to sprintf(\"" ++ format ++ "\")"))
      | v :: more =>
        left := more
        let shown ← match d.kind with
          | 's' => do pure (d.string (← toText v))
          | 'c' =>
            match v with
            | .num x => pure (d.string (String.ofList [Char.ofNat (Decimal.toInt x).toNat]))
            | v => do pure (d.string (String.ofList ((← toText v).toList.take 1)))
          | 'd' | 'i' =>
            let x := v.toNum
            match Decimal.special? x with
            | some s => pure (d.string s)
            | none =>
              let (a, b) := Decimal.fraction x
              let n : Int := (a / b : Nat)
              pure ({ d with kind := 'd' }.integer (if Decimal.isNegative x then -n else n))
          | 'o' | 'x' | 'X' | 'u' => pure (d.integer (Decimal.toInt v.toNum))
          | _ => pure (d.real v.toNum)
        text := text ++ shown
  return text

/-- The parts of a replacement: texts and places for what was matched. -/
def replacement : List Char → List (Option String)
  | '\\' :: '&' :: rest => some "&" :: replacement rest
  | '\\' :: '\\' :: rest => some "\\" :: replacement rest
  | '&' :: rest => none :: replacement rest
  | c :: rest => some (String.ofList [c]) :: replacement rest
  | [] => []

/-! ## Running -/

def arith (op : String) (x y : Float) : Float :=
  match op with
  | "+" => x + y
  | "-" => x - y
  | "*" => x * y
  | "/" => x / y
  | "%" =>
    if y == 0.0 then 0.0 / 0.0
    else
      let q := x / y
      let whole := if q < 0.0 then q.ceil else q.floor
      x - y * whole
  | _ => Float.pow x y

/-- Compares two values: as numbers if both are, as texts otherwise. -/
def compareVals (op : String) (a b : Val) : M Bool := do
  if a.isNumeric && b.isNumeric then
    let x := a.toNum
    let y := b.toNum
    return match op with
      | "<" => x < y
      | "<=" => x ≤ y
      | "==" => x == y
      | "!=" => x != y
      | ">" => y < x
      | _ => y ≤ x
  else
    let x ← toText a
    let y ← toText b
    return match op with
      | "<" => x < y
      | "<=" => x ≤ y
      | "==" => x == y
      | "!=" => x != y
      | ">" => y < x
      | _ => y ≤ x

/-- The key that several values make up. -/
def joinKeys (keys : List String) : M String := do
  return Text.joinWith (textVar (← get) "SUBSEP") keys

mutual

def eval (call : Caller) : Nat → Expr → M Val
  | 0, _ => throw (.failed "too many steps")
  | fuel + 1, e => do
    match e with
    | .number text => return .num (numberOf text)
    | .string s => return .str s
    | .regex pattern =>
      let r ← regexOf pattern
      return .ofBool (r.occursIn (← get).record)
    | .var name => getVar name
    | .field e =>
      let n ← fieldIndex (← eval call fuel e)
      let env ← get
      if n = 0 then return .given env.record
      else
        match env.fields[n - 1]? with
        | some s => return .given s
        | none => return .unset
    | .element name keys =>
      let key ← joinKeys (← evalTexts call fuel keys)
      let id ← arrayId name
      let env ← get
      let entries := env.arrays.getD id []
      match entries.find? (·.1 == key) with
      | some (_, v) => return v
      | none =>
        set { env with arrays := env.arrays.setIfInBounds id (entries ++ [(key, Val.unset)]) }
        return .unset
    | .assign target op value =>
      let v ← eval call fuel value
      if op = "=" then
        store call fuel target v
        return v
      else
        let old ← eval call fuel target
        let v := Val.num (arith (String.ofList (op.toList.take 1)) old.toNum v.toNum)
        store call fuel target v
        return v
    | .choose condition a b =>
      if (← eval call fuel condition).isTrue then eval call fuel a else eval call fuel b
    | .both a b =>
      if (← eval call fuel a).isTrue then return .ofBool (← eval call fuel b).isTrue
      else return .ofBool false
    | .either a b =>
      if (← eval call fuel a).isTrue then return .ofBool true
      else return .ofBool (← eval call fuel b).isTrue
    | .member keys name =>
      let key ← joinKeys (← evalTexts call fuel keys)
      let id ← arrayId name
      return .ofBool (((← get).arrays.getD id []).any (·.1 == key))
    | .like negated a b =>
      let text ← toText (← eval call fuel a)
      let r ← evalRegex call fuel b
      return .ofBool (r.occursIn text != negated)
    | .compare op a b =>
      let x ← eval call fuel a
      let y ← eval call fuel b
      return .ofBool (← compareVals op x y)
    | .concat a b =>
      let x ← toText (← eval call fuel a)
      let y ← toText (← eval call fuel b)
      return .str (x ++ y)
    | .binary op a b =>
      let x ← eval call fuel a
      let y ← eval call fuel b
      return .num (arith op x.toNum y.toNum)
    | .unary op e =>
      let v ← eval call fuel e
      match op with
      | "!" => return .ofBool (!v.isTrue)
      | "-" => return .num (-v.toNum)
      | _ => return .num v.toNum
    | .count before delta target =>
      let old := (← eval call fuel target).toNum
      let new := old + Decimal.ofInt delta
      store call fuel target (.num new)
      return .num (if before then old else new)
    | .list es =>
      match es with
      | [e] => eval call fuel e
      | es => return .str (← joinKeys (← evalTexts call fuel es))
    | .call name args => callFunction call fuel name args
    | .builtin name args => callBuiltin call fuel name args
    | .getline kind source target =>
      let found ← match kind, source with
        | "", _ => nextRecord 1000
        | kind, some source =>
          let name ← toText (← eval call fuel source)
          readSource call kind name
        | _, none => pure none
      match found with
      | none =>
        let env ← get
        let missing := match kind, source with
          | "<", some _ => env.sources.isEmpty
          | _, _ => false
        return .num (if missing then -1.0 else 0.0)
      | some text =>
        if kind = "|" then
          let n := numVar (← get) "NR"
          setVar "NR" (.num (n + 1.0))
        match target with
        | some target => store call fuel target (.given text)
        | none => setRecord text
        return .num 1.0

/-- The texts of some expressions. -/
def evalTexts (call : Caller) : Nat → List Expr → M (List String)
  | 0, _ => throw (.failed "too many steps")
  | _, [] => return []
  | fuel + 1, e :: es => do
    let text ← toText (← eval call fuel e)
    return text :: (← evalTexts call fuel es)

def evalAll (call : Caller) : Nat → List Expr → M (List Val)
  | 0, _ => throw (.failed "too many steps")
  | _, [] => return []
  | fuel + 1, e :: es => do
    let v ← eval call fuel e
    return v :: (← evalAll call fuel es)

/-- An expression as something to be matched. -/
def evalRegex (call : Caller) : Nat → Expr → M Regex
  | 0, _ => throw (.failed "too many steps")
  | fuel + 1, e => do
    match e with
    | .regex pattern => regexOf pattern
    | .list [e] => evalRegex call fuel e
    | e => regexOf (← toText (← eval call fuel e))

/-- Gives a target a value. -/
def store (call : Caller) : Nat → Expr → Val → M Unit
  | 0, _, _ => throw (.failed "too many steps")
  | fuel + 1, target, v => do
    match target with
    | .var name => setVar name v
    | .field e =>
      setField (← fieldIndex (← eval call fuel e)) v
    | .element name keys =>
      let key ← joinKeys (← evalTexts call fuel keys)
      let id ← arrayId name
      modify fun env =>
        let entries := env.arrays.getD id []
        let entries := if entries.any (·.1 == key) then
            entries.map fun (k, old) => if k == key then (k, v) else (k, old)
          else entries ++ [(key, v)]
        { env with arrays := env.arrays.setIfInBounds id entries }
    | .list [e] => store call fuel e v
    | _ => throw (.failed "not a target")

/-- Takes a record of a file or of the output of a command. -/
def readSource (call : Caller) (kind name : String) : M (Option String) := do
  let env ← get
  let known := (env.sources.find? (·.1 == name)).map (·.2)
  let rest ← match known with
    | some rest => pure (some rest)
    | none =>
      if kind = "<" then
        match ← onMachine (contentOf name) with
        | .ok text => pure (some text.toList)
        | .error _ => pure none
      else
        let (_, text) ← onMachine (collecting (call ["sh", "-c", name]))
        pure (some text.toList)
  match rest with
  | none => return none
  | some rest =>
    match ← takeRecord (textVar env "RS") rest with
    | some (record, rest) =>
      modify fun env => { env with sources := (name, rest) :: env.sources.filter (·.1 != name) }
      return some record
    | none =>
      modify fun env => { env with sources := (name, []) :: env.sources.filter (·.1 != name) }
      return none

/-- What parameters stand for: arrays are shared, other values are copied. -/
def bindArgs (call : Caller) : Nat → List String → List Expr → M (List (String × Slot))
  | 0, _, _ => throw (.failed "too many steps")
  | _, [], _ => return []
  | fuel + 1, p :: ps, [] => do
    return (p, .scalar .unset) :: (← bindArgs call fuel ps [])
  | fuel + 1, p :: ps, e :: es => do
    let slot ← match e with
      | .var name =>
        let env ← get
        match slot? env name with
        | some (.array id) => pure (Slot.array id)
        | some (.scalar .unset) | some (.open_ _) | none =>
          if name = "NF" then pure (Slot.scalar (← getVar name))
          else
            let id := env.arrays.size
            set (setSlot { env with arrays := env.arrays.push [] } name (.open_ id))
            pure (Slot.open_ id)
        | some (.scalar _) => pure (Slot.scalar (← getVar name))
      | e => pure (Slot.scalar (← eval call fuel e))
    return (p, slot) :: (← bindArgs call fuel ps es)

def callFunction (call : Caller) : Nat → String → List Expr → M Val
  | 0, _, _ => throw (.failed "too many steps")
  | fuel + 1, name, args => do
    let env ← get
    match env.program.functions.find? (·.name == name) with
    | none => throw (.failed ("function " ++ name ++ " never defined"))
    | some f =>
      let frame ← bindArgs call fuel f.params args
      modify fun env => { env with frames := frame :: env.frames }
      let v ← tryCatch (do
          exec call fuel f.body
          pure Val.unset)
        (fun
          | .result v => pure v
          | flow => throw flow)
      modify fun env => { env with frames := env.frames.tail }
      return v

def callBuiltin (call : Caller) : Nat → String → List Expr → M Val
  | 0, _, _ => throw (.failed "too many steps")
  | fuel + 1, name, args => do
    let number (i : Nat) : M Float := do
      match args[i]? with
      | some e => return (← eval call fuel e).toNum
      | none => return 0.0
    let text (i : Nat) : M String := do
      match args[i]? with
      | some e => toText (← eval call fuel e)
      | none => return ""
    match name with
    | "length" =>
      match args with
      | [] => return .ofNat (← get).record.length
      | [.var a] =>
        let env ← get
        match slot? env a with
        | some (.array id) | some (.open_ id) => return .ofNat (env.arrays.getD id []).length
        | _ => return .ofNat (← text 0).length
      | _ => return .ofNat (← text 0).length
    | "substr" =>
      let s := (← text 0).toList
      let start := Decimal.toInt ((← number 1) + 0.5).floor
      let stop ← if args.length < 3 then pure (s.length + 1 : Int)
        else do
          let from_ ← number 1
          let size ← number 2
          pure (Decimal.toInt (from_ + size + 0.5).floor)
      let first := max start 1
      let last := min stop (s.length + 1)
      return .str (String.ofList ((s.drop (first - 1).toNat).take (last - first).toNat))
    | "index" =>
      let s := (← text 0).toList
      let piece := (← text 1).toList
      let hit := (List.range (s.length + 1)).find? fun i =>
        (Text.afterLead? piece (s.drop i)).isSome
      return .ofNat (hit.map (· + 1) |>.getD 0)
    | "split" =>
      let s ← text 0
      let separator ← match args[2]? with
        | some (Expr.regex p) => pure (if p.length = 1 then "(" ++ p ++ ")" else p)
        | some e => toText (← eval call fuel e)
        | none => do pure (textVar (← get) "FS")
      let parts ← splitText separator s
      match args[1]? with
      | some (Expr.var a) =>
        let id ← arrayId a
        let entries := (parts.zipIdx 1).map fun (p, i) => (toString i, Val.given p)
        modify fun env => { env with arrays := env.arrays.setIfInBounds id entries }
        return .ofNat parts.length
      | _ => throw (.failed "split needs an array")
    | "sub" | "gsub" =>
      match args with
      | pattern :: new :: target =>
        let r ← evalRegex call fuel pattern
        let parts := replacement (← toText (← eval call fuel new)).toList
        let target := target.headD (.field (.number "0"))
        let old := (← toText (← eval call fuel target)).toList.toArray
        let fill (m : Regex.Match) : String :=
          String.join (parts.map fun p => p.getD (Regex.slice old m.start m.stop))
        let (done, hits) := r.replace fill 1 (name == "gsub") old
        if hits != 0 then store call fuel target (.str done)
        return .ofNat hits
      | _ => throw (.failed "sub needs two arguments")
    | "match" =>
      let s := (← text 0).toList.toArray
      let r ← match args[1]? with
        | some e => evalRegex call fuel e
        | none => pure Regex.empty
      let (start, size) : Nat × Int := match r.find? s 0 with
        | some m => (m.start + 1, (m.stop - m.start : Nat))
        | none => (0, -1)
      setVar "RSTART" (.ofNat start)
      setVar "RLENGTH" (.num (Decimal.ofInt size))
      return .ofNat start
    | "sprintf" =>
      let format ← text 0
      return .str (← formatVals format (← evalAll call fuel args.tail))
    | "sin" => return .num (← number 0).sin
    | "cos" => return .num (← number 0).cos
    | "atan2" => return .num (Float.atan2 (← number 0) (← number 1))
    | "exp" => return .num (← number 0).exp
    | "log" => return .num (← number 0).log
    | "sqrt" => return .num (← number 0).sqrt
    | "int" =>
      let x ← number 0
      return .num (if x < 0.0 then x.ceil else x.floor)
    | "rand" =>
      let seed := ((← get).seed * 1103515245 + 12345) % 2147483648
      modify fun env => { env with seed }
      return .num (Decimal.ofInt seed / 2147483648.0)
    | "srand" =>
      let old := (← get).seed
      let new := (Decimal.toInt (← number 0)).toNat
      modify fun env => { env with seed := new }
      return .ofNat old
    | "tolower" => return .str ((← text 0).map Char.toLower)
    | "toupper" => return .str ((← text 0).map Char.toUpper)
    | "system" =>
      let command ← text 0
      return .ofNat (← onMachine (call ["sh", "-c", command]))
    | "close" => close call (← text 0)
    | _ => return .num 0.0

def exec (call : Caller) : Nat → Stmt → M Unit
  | 0, _ => throw (.failed "too many steps")
  | fuel + 1, s => do
    match s with
    | .block body => execAll call fuel body
    | .expr e =>
      let _ ← eval call fuel e
      pure ()
    | .print formatted args redirection target =>
      let env ← get
      let text ← if formatted then do
          match ← evalAll call fuel args with
          | format :: vals => formatVals (← toText format) vals
          | [] => pure ""
        else do
          let vals ← evalAll call fuel args
          let shown := vals.map fun v => v.text (textVar env "OFMT")
          let body := if args.isEmpty then env.record else Text.joinWith (textVar env "OFS") shown
          pure (body ++ textVar env "ORS")
      match target with
      | none => say text
      | some target =>
        let name ← toText (← eval call fuel target)
        if redirection = "|" then
          modify fun env =>
            let old := ((env.pipes.find? (·.1 == name)).map (·.2)).getD ""
            { env with pipes := env.pipes.filter (·.1 != name) ++ [(name, old ++ text)] }
        else writeTo (redirection == ">>") name text
    | .choose condition a b =>
      if (← eval call fuel condition).isTrue then exec call fuel a else exec call fuel b
    | .loop condition body => execLoop call fuel (some condition) (.block []) body
    | .loopAfter body condition =>
      let goesOn ← execBody call fuel body
      if goesOn then execLoop call fuel (some condition) (.block []) body
    | .count start condition step body =>
      exec call fuel start
      execLoop call fuel condition step body
    | .each name array body =>
      let id ← arrayId array
      let keys := ((← get).arrays.getD id []).map (·.1)
      execEach call fuel name keys body
    | .next => throw .next
    | .exit e =>
      match e with
      | some e =>
        let v ← eval call fuel e
        modify fun env => { env with status := ((Decimal.toInt v.toNum) % 256).toNat }
      | none => pure ()
      throw .exit
    | .result e =>
      match e with
      | some e => throw (.result (← eval call fuel e))
      | none => throw (.result .unset)
    | .leave => throw .leave
    | .again => throw .again
    | .delete name keys =>
      let id ← arrayId name
      match keys with
      | none => modify fun env => { env with arrays := env.arrays.setIfInBounds id [] }
      | some keys =>
        let key ← joinKeys (← evalTexts call fuel keys)
        modify fun env =>
          let entries := (env.arrays.getD id []).filter (·.1 != key)
          { env with arrays := env.arrays.setIfInBounds id entries }

def execAll (call : Caller) : Nat → List Stmt → M Unit
  | 0, _ => throw (.failed "too many steps")
  | _, [] => pure ()
  | fuel + 1, s :: ss => do
    exec call fuel s
    execAll call fuel ss

/-- The body of a loop; whether the loop goes on. -/
def execBody (call : Caller) : Nat → Stmt → M Bool
  | 0, _ => throw (.failed "too many steps")
  | fuel + 1, body =>
    tryCatch (do
        exec call fuel body
        pure true)
      (fun
        | .leave => pure false
        | .again => pure true
        | flow => throw flow)

def execLoop (call : Caller) : Nat → Option Expr → Stmt → Stmt → M Unit
  | 0, _, _, _ => throw (.failed "too many steps")
  | fuel + 1, condition, step, body => do
    let holds ← match condition with
      | some e => do pure (← eval call fuel e).isTrue
      | none => pure true
    if holds then
      if ← execBody call fuel body then
        exec call fuel step
        execLoop call fuel condition step body

def execEach (call : Caller) : Nat → String → List String → Stmt → M Unit
  | 0, _, _, _ => throw (.failed "too many steps")
  | _, _, [], _ => pure ()
  | fuel + 1, name, key :: keys, body => do
    setVar name (.given key)
    if ← execBody call fuel body then execEach call fuel name keys body

end

/-- The number of steps that one record may take. -/
def stepLimit : Nat := 200000

/-- Whether a rule is for the current record. -/
def fits (call : Caller) (index : Nat) : Pattern → M Bool
  | .first | .last => return false
  | .always => return true
  | .holds e => do return (← eval call stepLimit e).isTrue
  | .range a b => do
    let isOpen := (← get).ranges.contains index
    if isOpen || (← eval call stepLimit a).isTrue then
      let ends := (← eval call stepLimit b).isTrue
      modify fun env =>
        let others := env.ranges.filter (· != index)
        { env with ranges := if ends then others else index :: others }
      return true
    else return false

/-- Carries out the rules for the current record. -/
def ruleRound (call : Caller) (rules : List (Rule × Nat)) : M Unit :=
  tryCatch (do
      for (rule, index) in rules do
        if ← fits call index rule.pattern then
          match rule.action with
          | some s => exec call stepLimit s
          | none =>
            let env ← get
            say (env.record ++ textVar env "ORS"))
    (fun
      | .next => pure ()
      | flow => throw flow)

/-- Goes through the records. -/
def records (call : Caller) (rules : List (Rule × Nat)) : Nat → M Unit
  | 0 => pure ()
  | fuel + 1 => do
    match ← nextRecord 1000 with
    | none => pure ()
    | some text =>
      setRecord text
      ruleRound call rules
      records call rules fuel

/-- The number of records that a program may read. -/
def recordLimit : Nat := 200000

/-- Carries out something, where an exit ends it; whether it came to its end. -/
def untilExit (act : M Unit) : M Bool :=
  tryCatch (do
      act
      pure true)
    (fun
      | .exit => pure false
      | .next | .leave | .again | .result _ => pure true
      | .failed message => throw (.failed message))

/-- Carries out a whole program. -/
def whole (call : Caller) : M Unit := do
  let rules := (← get).program.rules.zipIdx
  let special (want : Pattern → Bool) : M Unit := do
    for (rule, _) in rules do
      if want rule.pattern then
        match rule.action with
        | some s => exec call stepLimit s
        | none => pure ()
  let isFirst : Pattern → Bool
    | .first => true
    | _ => false
  let isLast : Pattern → Bool
    | .last => true
    | _ => false
  let started ← untilExit (special isFirst)
  let needsInput := rules.any fun (r, _) => !isFirst r.pattern
  if started && needsInput then
    let _ ← untilExit (records call rules recordLimit)
  if needsInput && rules.any fun (r, _) => isLast r.pattern then
    let _ ← untilExit (special isLast)
  for (command, text) in (← get).pipes do
    let _ ← runPipe call command text

/-- The variables that a program starts with. -/
def startVariables : List (String × Slot) :=
  [("FS", .scalar (.str " ")), ("OFS", .scalar (.str " ")), ("ORS", .scalar (.str "\n")),
    ("RS", .scalar (.str "\n")), ("SUBSEP", .scalar (.str (String.ofList [Char.ofNat 28]))),
    ("CONVFMT", .scalar (.str "%.6g")), ("OFMT", .scalar (.str "%.6g")),
    ("NR", .scalar (.num 0.0)), ("FNR", .scalar (.num 0.0))]

end MarkerDoc.Shell.Awk

namespace MarkerDoc.Shell.Utility

/-- Runs a program for records and fields. -/
def awk (call : Caller) (args : List String) : Act Nat := do
  match Options.readFront "F:v:f:" [] args with
  | .error e => failWith ("awk: " ++ e) 2
  | .ok o =>
    let m ← get
    let fromFiles := (o.values 'f').map fun file => (m.fileText file).toOption
    if fromFiles.contains none then
      return ← failWith ("awk: couldn't open file " ++ (o.value? 'f').getD "") 2
    let (text, operands) := if o.has 'f' then
        (Text.joinWith "\n" (fromFiles.filterMap fun t => t), o.operands)
      else (o.operands.headD "", o.operands.tail)
    if !o.has 'f' && o.operands.isEmpty then return ← failWith "usage: awk program [file ...]" 2
    match Awk.read? text with
    | none => failWith "awk: line 1: syntax error at or near end of line" 2
    | some program =>
      let environ := m.environment.map fun (name, value) => (name, Awk.Val.given value)
      let argv := ("awk" :: operands).zipIdx.map fun (a, i) => (toString i, Awk.Val.given a)
      let globals := Awk.startVariables ++ [("ENVIRON", .array 0), ("ARGV", .array 1),
        ("ARGC", .scalar (.ofNat (operands.length + 1)))]
      let env : Awk.Env :=
        { machine := m, program, globals, files := operands, arrays := #[environ, argv] }
      let start : Awk.M Unit := do
        for f in o.values 'F' do
          let s := if f = "t" then "\t" else (unescape .bare f).1
          Awk.setVar "FS" (.str s)
        for v in o.values 'v' do
          match Awk.assignment? v with
          | some (name, value) => Awk.setVar name (.given (unescape .bare value).1)
          | none => throw (.failed ("improper assignment: -v " ++ v))
        Awk.whole call
      let (result, env) := (start.run).run env
      set env.machine
      match result with
      | .ok _ => return env.status
      | .error (.failed message) => failWith ("awk: " ++ message) 2
      | .error _ => return env.status

end MarkerDoc.Shell.Utility
