import MarkerDoc.Text.Utf8

/-!
# Bytes as text

The names of files, paths and the arguments of programs are bytes, and bytes need not spell
characters.  They are kept as texts in which every byte stands as the character with its code, so
that what is ASCII looks the same either way.

A text goes in as the bytes that spell it.  On the way out bytes are read as the characters that
they spell: strictly, which fails where they spell none, or with replacement characters there.
-/

namespace MarkerDoc.Bytes

/-- The character that stands for a byte. -/
def char (b : UInt8) : Char :=
  Char.ofNat b.toNat

/-- The byte that a character stands for.  One that stands for none counts as a byte that is in no
text. -/
def byte (c : Char) : UInt8 :=
  if c.toNat < 256 then UInt8.ofNat c.toNat else 0xFF

/-- Some bytes as a text. -/
def ofArray (bytes : ByteArray) : String :=
  String.ofList (bytes.toList.map char)

/-- The bytes that a text stands for. -/
def toArray (s : String) : ByteArray :=
  ⟨(s.toList.map byte).toArray⟩

/-- The bytes that spell a character. -/
def ofChar (c : Char) : List Char :=
  (String.utf8EncodeChar c).map char

/-- The bytes that spell a text. -/
def ofText (s : String) : String :=
  String.ofList (s.toList.flatMap ofChar)

/-- The text that bytes spell; nothing if they are not UTF-8. -/
def toText? (s : String) : Option String :=
  String.fromUTF8? (toArray s)

/-- The text that bytes spell, with replacement characters where they spell none. -/
def toText (s : String) : String :=
  Text.decode (toArray s)

end MarkerDoc.Bytes
