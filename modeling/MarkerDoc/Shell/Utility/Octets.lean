import MarkerDoc.Shell.Utility.Lines

/-!
# Programs that work on bytes

Dumps and comparisons of bytes, and a notation of bytes in printable characters.
-/

namespace MarkerDoc.Shell.Utility

/-- A way of showing bytes in a dump. -/
structure DumpFormat where
  /-- The letter of the notation, and the number of bytes that are shown together. -/
  kind : Char
  size : Nat
deriving DecidableEq

namespace DumpFormat

/-- The names of characters that cannot be printed. -/
def controlNames : List String :=
  ["nul", "soh", "stx", "etx", "eot", "enq", "ack", "bel", "bs", "ht", "nl", "vt", "ff", "cr",
    "so", "si", "dle", "dc1", "dc2", "dc3", "dc4", "nak", "syn", "etb", "can", "em", "sub", "esc",
    "fs", "gs", "rs", "us", "sp"]

/-- The width of one entry without the blank in front. -/
def width (f : DumpFormat) : Nat :=
  match f.kind, f.size with
  | 'a', _ | 'c', _ => 3
  | 'x', n => 2 * n
  | 'o', n => (8 * n + 2) / 3
  | 'u', 1 => 3
  | 'u', 2 => 5
  | 'u', 4 => 10
  | 'u', _ => 20
  | _, 1 => 4
  | _, 2 => 6
  | _, 4 => 11
  | _, _ => 20

/-- One entry, from bytes with the lowest first. -/
def entry (f : DumpFormat) (bytes : List Nat) : String :=
  let n := bytes.foldr (fun b n => b + 256 * n) 0
  match f.kind with
  | 'a' =>
    let c := n % 128
    if c = 127 then "del" else controlNames.getD c (String.ofList [Char.ofNat c])
  | 'c' =>
    match n with
    | 0 => "\\0"
    | 7 => "\\a"
    | 8 => "\\b"
    | 9 => "\\t"
    | 10 => "\\n"
    | 11 => "\\v"
    | 12 => "\\f"
    | 13 => "\\r"
    | n =>
      if 32 ≤ n && n < 127 then String.ofList [Char.ofNat n]
      else padLeft 3 '0' (String.ofList (Nat.toDigits 8 n))
  | 'x' => padLeft f.width '0' (String.ofList (Nat.toDigits 16 n))
  | 'o' => padLeft f.width '0' (String.ofList (Nat.toDigits 8 n))
  | 'u' => toString n
  | _ =>
    let half := Nat.pow 2 (8 * f.size - 1)
    toString (if n < half then (n : Int) else n - 2 * half)

/-- Reads formats such as `x1` and `u2`. -/
def readAll : Nat → List Char → Option (List DumpFormat)
  | 0, _ => none
  | _, [] => some []
  | fuel + 1, kind :: rest =>
    if kind == 'a' || kind == 'c' then (readAll fuel rest).map (⟨kind, 1⟩ :: ·)
    else if "xoud".toList.contains kind then
      let (digits, after) := Decimal.digitsOf rest
      let (size, after) := match digits, after with
        | [], 'C' :: after => (1, after)
        | [], 'S' :: after => (2, after)
        | [], 'I' :: after => (4, after)
        | [], 'L' :: after => (8, after)
        | [], after => (4, after)
        | ds, after => ((String.ofList ds).toNat?.getD 0, after)
      if [1, 2, 4, 8].contains size then (readAll fuel after).map (⟨kind, size⟩ :: ·) else none
    else none

end DumpFormat

/-- Splits a list into groups of a size. -/
def groups {α : Type} (size : Nat) : Nat → List α → List (List α)
  | 0, _ => []
  | _, [] => []
  | fuel + 1, xs => xs.take size :: groups size fuel (xs.drop size)

/-- The lines for one row of a dump, one for each format.  Entries share the width of the widest
format. -/
def dumpRow (formats : List DumpFormat) (rowSize : Nat) (row : List Nat) : List String :=
  let perRow (f : DumpFormat) : Nat := (f.width + 1) * (rowSize / f.size)
  let widest := (formats.map perRow).foldl max 0
  formats.map fun f =>
    let fields := rowSize / f.size
    let pad := widest - fields * f.width
    let entries := groups f.size (row.length + 1) row
    (entries.zipIdx.foldl (fun (text, left) (bytes, i) =>
      let next := pad * (fields - i - 1) / fields
      (text ++ padLeft (left - next + f.width) ' ' (f.entry bytes), next)) ("", pad)).1

/-- Shows bytes as numbers or characters. -/
def od (args : List String) : Act Nat :=
  withOptions "od" "A:t:N:j:w:vcxbdoasil" [("address-radix", 'A'), ("format", 't'),
    ("read-bytes", 'N'), ("skip-bytes", 'j'), ("width", 'w'), ("output-duplicates", 'v')] 1 args
  fun o => do
    let formats : Option (List DumpFormat) := o.given.foldlM (fun found (c, v) =>
      let push (f : DumpFormat) : Option (List DumpFormat) := some (found ++ [f])
      match c with
      | 't' => (DumpFormat.readAll (v.length + 1) v.toList).map (found ++ ·)
      | 'c' => push ⟨'c', 1⟩
      | 'x' => push ⟨'x', 2⟩
      | 'b' => push ⟨'o', 1⟩
      | 'd' => push ⟨'u', 2⟩
      | 'o' => push ⟨'o', 2⟩
      | 'a' => push ⟨'a', 1⟩
      | 's' => push ⟨'d', 2⟩
      | 'i' => push ⟨'d', 4⟩
      | 'l' => push ⟨'d', 8⟩
      | _ => some found) []
    match formats with
    | none => failWith "od: invalid type string" 1
    | some formats =>
      let formats := if formats.isEmpty then [⟨'o', 2⟩] else formats
      let (found, ok) ← contentsOf (plainComplaint "od") o.operands
      let skip := ((o.value? 'j').bind sizeArgument?).getD 0
      let bytes := ((String.join (found.map (·.2))).toList.map Char.toNat).drop skip
      let bytes := match (o.value? 'N').bind sizeArgument? with
        | some n => bytes.take n
        | none => bytes
      let rowSize := max 1 (((o.value? 'w').bind String.toNat?).getD 16)
      let radix := (o.value? 'A').getD "o"
      let address (n : Nat) : String := match radix with
        | "n" => ""
        | "d" => padLeft 7 '0' (toString n)
        | "x" => padLeft 6 '0' (String.ofList (Nat.toDigits 16 n))
        | _ => padLeft 7 '0' (String.ofList (Nat.toDigits 8 n))
      let blank := String.ofList (List.replicate (address 0).length ' ')
      let rows := groups rowSize (bytes.length + 1) bytes
      let mut last : Option (List Nat) := none
      let mut starred := false
      for (row, i) in rows.zipIdx do
        if last == some row && !o.has 'v' then
          if !starred then say "*\n"
          starred := true
        else
          starred := false
          for (line, k) in (dumpRow formats rowSize row).zipIdx do
            say ((if k = 0 then address (skip + i * rowSize) else blank) ++ line ++ "\n")
        last := some row
      if radix != "n" then say (address (skip + bytes.length) ++ "\n")
      return if ok then 0 else 1

/-- The first position at which two texts differ, with the number of line breaks before it. -/
def firstDifference : Nat → Nat → List Char → List Char → Nat × Nat × List Char × List Char
  | at_, lines, a :: as, b :: bs =>
    if a = b then firstDifference (at_ + 1) (if a = '\n' then lines + 1 else lines) as bs
    else (at_, lines, a :: as, b :: bs)
  | at_, lines, as, bs => (at_, lines, as, bs)

/-- Compares two files byte by byte. -/
def cmp (args : List String) : Act Nat :=
  withOptions "cmp" "slbi:n:" [("silent", 's'), ("quiet", 's'), ("verbose", 'l'), ("bytes", 'n'),
    ("print-bytes", 'b')] 2 args fun o => do
    match o.operands with
    | [] => failWith "cmp: missing operand after 'cmp'" 2
    | a :: more =>
      let b := more.headD "-"
      let (found, ok) ← contentsOf
        (fun file e => if o.has 's' then "" else bareComplaint "cmp" file e) [a, b]
      match ok, found with
      | true, [(_, x), (_, y)] =>
        let limit := (o.value? 'n').bind sizeArgument?
        let cs (s : String) : List Char := match limit with
          | some n => s.toList.take n
          | none => s.toList
        let (xs, ys) := if a == b then (cs x, cs x) else (cs x, cs y)
        if xs = ys then return 0
        if o.has 's' then return 1
        if o.has 'l' then
          let width := (toString (max xs.length ys.length)).length
          for ((p, q), i) in (xs.zip ys).zipIdx 1 do
            if p != q then
              let octal (c : Char) : String :=
                padLeft 3 ' ' (String.ofList (Nat.toDigits 8 c.toNat))
              say (padLeft width ' ' (toString i) ++ " " ++ octal p ++ " " ++ octal q ++ "\n")
        let (at_, lines, restX, restY) := firstDifference 0 0 xs ys
        if restX.isEmpty || restY.isEmpty then
          let short := if restX.isEmpty then a else b
          if at_ = 0 then failWith ("cmp: EOF on " ++ short ++ " which is empty") 1
          else
            let last := (xs.drop (at_ - 1)).head? == some '\n'
            let place := if o.has 'l' then ""
              else if last then ", line " ++ toString lines
              else ", in line " ++ toString (lines + 1)
            failWith ("cmp: EOF on " ++ short ++ " after byte " ++ toString at_ ++ place) 1
        else
          if !o.has 'l' then
            say (a ++ " " ++ b ++ " differ: char " ++ toString (at_ + 1) ++ ", line " ++
              toString (lines + 1) ++ "\n")
          return 1
      | _, _ => return 2

/-- The characters of the printable notation. -/
def base64Digits : Array Char :=
  "ABCDEFGHIJKLMNOPQRSTUVWXYZabcdefghijklmnopqrstuvwxyz0123456789+/".toList.toArray

/-- Three bytes as four characters. -/
def encode64 (bytes : List Nat) : String :=
  String.join ((groups 3 (bytes.length + 1) bytes).map fun g =>
    let n := (g ++ List.replicate (3 - g.length) 0).foldl (fun n b => 256 * n + b) 0
    let digits := [n / Nat.pow 2 18, n / Nat.pow 2 12 % 64, n / 64 % 64, n % 64].map fun d =>
      base64Digits.getD d 'A'
    String.ofList (digits.take (g.length + 1)) ++ padLeft (3 - g.length) '=' "")

/-- The bytes that printable characters stand for; nothing if others are among them. -/
def decode64? (cs : List Char) : Option (List Nat) := do
  let digits := Text.dropEndWhile (· == '=') cs
  let values ← digits.mapM fun c => base64Digits.toList.idxOf? c
  let bytes := (groups 4 (values.length + 1) values).flatMap fun g =>
    let n := (g ++ List.replicate (4 - g.length) 0).foldl (fun n d => 64 * n + d) 0
    [n / 65536, n / 256 % 256, n % 256].take (g.length - 1)
  if cs.length % 4 = 0 then some bytes else none

/-- The characters of the notation that does without small letters. -/
def base32Digits : Array Char :=
  "ABCDEFGHIJKLMNOPQRSTUVWXYZ234567".toList.toArray

/-- Five bytes as eight characters. -/
def encode32 (bytes : List Nat) : String :=
  String.join ((groups 5 (bytes.length + 1) bytes).map fun g =>
    let n := (g ++ List.replicate (5 - g.length) 0).foldl (fun n b => 256 * n + b) 0
    let digits := (List.range 8).map fun i => base32Digits.getD (n / Nat.pow 32 (7 - i) % 32) 'A'
    let size := (8 * g.length + 4) / 5
    String.ofList (digits.take size) ++ padLeft (8 - size) '=' "")

/-- The bytes that characters of that notation stand for. -/
def decode32? (cs : List Char) : Option (List Nat) := do
  let digits := Text.dropEndWhile (· == '=') cs
  let values ← digits.mapM fun c => base32Digits.toList.idxOf? c
  let bytes := (groups 8 (values.length + 1) values).flatMap fun g =>
    let n := (g ++ List.replicate (8 - g.length) 0).foldl (fun n d => 32 * n + d) 0
    ((List.range 5).map fun i => n / Nat.pow 256 (4 - i) % 256).take (5 * g.length / 8)
  if cs.length % 8 = 0 then some bytes else none

/-- Shows bytes in printable characters, or the other way round. -/
def printable (program : String) (encode : List Nat → String)
    (decode? : List Char → Option (List Nat)) (args : List String) : Act Nat :=
  withOptions program "dw:i" [("decode", 'd'), ("wrap", 'w'), ("ignore-garbage", 'i')] 1 args
  fun o => do
    let (found, ok) ← contentsOf (plainComplaint program) (o.operands.take 1)
    if !ok then return 1
    let text := String.join (found.map (·.2))
    if o.has 'd' then
      match decode? (text.toList.filter (· != '\n')) with
      | some bytes =>
        say (String.ofList (bytes.map Char.ofNat))
        return 0
      | none => failWith (program ++ ": invalid input") 1
    else
      let encoded := (encode (text.toList.map Char.toNat)).toList
      let width := ((o.value? 'w').bind String.toNat?).getD 76
      if width = 0 then say (String.ofList encoded)
      else say (unlines ((groups width (encoded.length + 1) encoded).map String.ofList))
      return 0

end MarkerDoc.Shell.Utility
