import MarkerDoc.Shell.Arithmetic

/-!
# Decimal notation of real numbers

Numbers with a fraction are kept in binary with 53 significant bits.  Their decimal notations are
worked out exactly on whole numbers, and a half goes to the even neighbour.
-/

namespace MarkerDoc.Shell

namespace Decimal

/-- A finite number as a fraction of whole numbers, without its sign. -/
def fraction (x : Float) : Nat × Nat :=
  let bits := x.toBits.toNat
  let exponent := bits / Nat.pow 2 52 % Nat.pow 2 11
  let rest := bits % Nat.pow 2 52
  let mantissa := if exponent = 0 then rest else rest + Nat.pow 2 52
  let power : Int := (max exponent 1 : Nat) - 1075
  if power < 0 then (mantissa, Nat.pow 2 (-power).toNat) else (mantissa * Nat.pow 2 power.toNat, 1)

/-- Whether the sign of a number is set. -/
def isNegative (x : Float) : Bool :=
  x.toBits.toNat / Nat.pow 2 63 % 2 == 1

/-- The nearest whole number to a quotient, where a half goes to the even neighbour. -/
def roundDiv (a b : Nat) : Nat :=
  let q := a / b
  let twice := 2 * (a % b)
  if b < twice || (twice = b && q % 2 = 1) then q + 1 else q

/-- The number with a fixed number of places. -/
def fixed (places : Nat) (x : Float) : String :=
  let (a, b) := fraction x
  let n := roundDiv (a * Nat.pow 10 places) b
  let digits := padLeft (places + 1) '0' (toString n)
  let whole := String.ofList (digits.toList.take (digits.length - places))
  if places = 0 then whole
  else whole ++ "." ++ String.ofList (digits.toList.drop (digits.length - places))

/-- The largest power of ten that is not above a positive quotient, searched downward. -/
def magnitudeFrom (a b : Nat) : Nat → Int → Int
  | 0, e => e
  | fuel + 1, e =>
    let fits := if 0 ≤ e then b * Nat.pow 10 e.toNat ≤ a else b ≤ a * Nat.pow 10 (-e).toNat
    if fits then e else magnitudeFrom a b fuel (e - 1)

/-- The digits of a positive number, one before the point and a number of places after it, and the
power of ten. -/
def significant (places : Nat) (x : Float) : String × Int :=
  let (a, b) := fraction x
  if a = 0 then (String.ofList (List.replicate (places + 1) '0'), 0)
  else
    let guess : Int := ((Nat.log2 a + 1 : Nat) - (Nat.log2 b : Nat) : Int) * 30103 / 100000 + 1
    let e := magnitudeFrom a b 8 guess
    let shift : Int := places - e
    let n := if 0 ≤ shift then roundDiv (a * Nat.pow 10 shift.toNat) b
      else roundDiv a (b * Nat.pow 10 (-shift).toNat)
    if n = Nat.pow 10 (places + 1) then (toString (Nat.pow 10 places), e + 1) else (toString n, e)

/-- Digits and power of ten as text. -/
def withExponent (digits : String) (e : Int) : String :=
  let point := if digits.length = 1 then digits
    else String.ofList (digits.toList.take 1) ++ "." ++ String.ofList (digits.toList.drop 1)
  point ++ (if e < 0 then "e-" else "e+") ++ padLeft 2 '0' (toString e.natAbs)

/-- The number with a power of ten. -/
def scientific (places : Nat) (x : Float) : String :=
  let (digits, e) := significant places x
  withExponent digits e

/-- Drops zeros at the end of a fraction. -/
def dropZeros (s : String) : String :=
  if s.toList.contains '.' then
    let cs := Text.dropEndWhile (· == '0') s.toList
    String.ofList (Text.dropEndWhile (· == '.') cs)
  else s

/-- The number with a number of significant digits, in whichever notation is shorter. -/
def general (digits : Nat) (keepZeros : Bool) (x : Float) : String :=
  let wanted := max digits 1
  let (found, e) := significant (wanted - 1) x
  let trim (s : String) : String := if keepZeros then s else dropZeros s
  if -4 ≤ e && e < wanted then trim (fixed (wanted - 1 - e).toNat x)
  else
    let cs := if keepZeros then found.toList
      else found.toList.take 1 ++ Text.dropEndWhile (· == '0') (found.toList.drop 1)
    withExponent (String.ofList cs) e

/-- A number that is not finite as text, without its sign. -/
def special? (x : Float) : Option String :=
  if x.isNaN then some "nan" else if x.isInf then some "inf" else none

/-- The digits in front of a text, and what follows them. -/
def digitsOf (cs : List Char) : List Char × List Char :=
  (cs.takeWhile Char.isDigit, cs.dropWhile Char.isDigit)

/-- The power that a letter announces in front of a text, and what follows it.  A letter without
digits announces nothing. -/
def powerOf (letter : Char) (cs : List Char) : Int × List Char :=
  match cs with
  | c :: after =>
    if c.toLower = letter then
      let (down, digits) := match after with
        | '-' :: more => (true, more)
        | '+' :: more => (false, more)
        | more => (false, more)
      let (found, tail) := digitsOf digits
      if found.isEmpty then (0, cs)
      else
        let n : Int := (String.ofList found).toNat?.getD 0
        (if down then -n else n, tail)
    else (0, cs)
  | [] => (0, cs)

/-- The number in base ten in front of a text that has no sign, and what follows it. -/
def inTens? (cs : List Char) : Option (Float × List Char) :=
  let (whole, rest) := digitsOf cs
  let (places, rest) := match rest with
    | '.' :: after => digitsOf after
    | rest => ([], rest)
  if whole.isEmpty && places.isEmpty then none
  else
    let (exponent, rest) := powerOf 'e' rest
    let mantissa := (String.ofList (whole ++ places)).toNat?.getD 0
    let power := max (-5000) (min 5000 exponent) - places.length
    let x := if power < 0 then Float.ofScientific mantissa true (-power).toNat
      else Float.ofScientific mantissa false power.toNat
    some (x, rest)

/-- The number in base sixteen whose digits stand in front of a text, and what follows it.  A power
is one of two. -/
def inSixteens? (cs : List Char) : Option (Float × List Char) :=
  let isDigit (c : Char) : Bool := (digitValue? c).any (· < 16)
  let whole := cs.takeWhile isDigit
  let rest := cs.dropWhile isDigit
  let (places, rest) := match rest with
    | '.' :: after => (after.takeWhile isDigit, after.dropWhile isDigit)
    | rest => ([], rest)
  if whole.isEmpty && places.isEmpty then none
  else
    let (exponent, rest) := powerOf 'p' rest
    let mantissa := (whole ++ places).foldl (fun n c => 16 * n + (digitValue? c).getD 0) 0
    let power := max (-5000) (min 5000 exponent) - 4 * places.length
    some ((Float.ofNat mantissa).scaleB power, rest)

/-- What follows a word in lower case that a text begins with in any case. -/
def afterWord? (word : String) (cs : List Char) : Option (List Char) :=
  if (cs.take word.length).map Char.toLower = word.toList then some (cs.drop word.length) else none

/-- The number in front of a text, and what follows it: in base ten, in base sixteen behind `0x`,
or the name of one that is not finite. -/
def leading? (cs : List Char) : Option (Float × List Char) :=
  let (negative, body) := match cs with
    | '-' :: rest => (true, rest)
    | '+' :: rest => (false, rest)
    | cs => (false, cs)
  let endless (rest : List Char) : Float × List Char := (1.0 / 0.0, rest)
  let found := ((afterWord? "0x" body).bind inSixteens?)
    |>.or (inTens? body)
    |>.or ((afterWord? "infinity" body).map endless)
    |>.or ((afterWord? "inf" body).map endless)
    |>.or ((afterWord? "nan" body).map fun rest => (0.0 / 0.0, rest))
  found.map fun (x, rest) => (if negative then -x else x, rest)

/-- A whole number as a real one. -/
def ofInt (n : Int) : Float :=
  let x := Float.ofScientific n.natAbs false 0
  if n < 0 then -x else x

/-- The whole part of a real number; numbers out of range go to the nearest that is not. -/
def toInt (x : Float) : Int :=
  if x.isNaN then -(Int.pow 2 63)
  else if x.isInf then (if isNegative x then -(Int.pow 2 63) else Int.pow 2 63 - 1)
  else
    let (a, b) := fraction x
    let n : Int := (a / b : Nat)
    saturate (if isNegative x then -n else n)

end Decimal

end MarkerDoc.Shell
