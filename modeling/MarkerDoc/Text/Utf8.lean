/-!
# Reading bytes as text

Bytes that follow UTF-8 are read as the characters they spell.  Where they do not, each longest
piece that could have begun a character, or the single byte that could not, is read as one
replacement character.
-/

namespace MarkerDoc.Text

/-- The character that stands for bytes that spell none. -/
def replacement : Char := Char.ofNat 0xFFFD

/-- The ranges that the bytes after a leading byte lie in; nothing if no character begins with the
byte. -/
def trailRanges? (b : Nat) : Option (List (Nat × Nat)) :=
  let any := (0x80, 0xBF)
  if b < 0x80 then some []
  else if b < 0xC2 then none
  else if b < 0xE0 then some [any]
  else if b = 0xE0 then some [(0xA0, 0xBF), any]
  else if b = 0xED then some [(0x80, 0x9F), any]
  else if b < 0xF0 then some [any, any]
  else if b = 0xF0 then some [(0x90, 0xBF), any, any]
  else if b < 0xF4 then some [any, any, any]
  else if b = 0xF4 then some [(0x80, 0x8F), any, any]
  else none

/-- The bits of a code point in its leading byte, given how many bytes follow. -/
def leadBits (trail b : Nat) : Nat :=
  match trail with
  | 0 => b
  | 1 => b % 0x20
  | 2 => b % 0x10
  | _ => b % 0x08

/-- Adds the bytes that follow a leading byte to the bits read so far.  Gives the character, or the
replacement if a byte lies outside its range, and the bytes that are left. -/
def trailFrom : Nat → List (Nat × Nat) → List Nat → Char × List Nat
  | bits, [], bs => (Char.ofNat bits, bs)
  | _, _ :: _, [] => (replacement, [])
  | bits, (low, high) :: ranges, b :: bs =>
    if low ≤ b && b ≤ high then trailFrom (bits * 0x40 + b % 0x40) ranges bs
    else (replacement, b :: bs)

/-- Reads bytes as characters; `fuel` is at least their number. -/
def decodeFrom : Nat → List Nat → List Char
  | 0, _ => []
  | _, [] => []
  | fuel + 1, b :: bs =>
    match trailRanges? b with
    | none => replacement :: decodeFrom fuel bs
    | some ranges =>
      let (c, rest) := trailFrom (leadBits ranges.length b) ranges bs
      c :: decodeFrom fuel rest

/-- The text of bytes, with replacement characters where they spell none. -/
def decode (bytes : ByteArray) : String :=
  match String.fromUTF8? bytes with
  | some text => text
  | none => String.ofList (decodeFrom bytes.size (bytes.data.toList.map UInt8.toNat))

end MarkerDoc.Text
