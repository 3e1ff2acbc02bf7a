import MarkerDoc.DocBlock
import MarkerDoc.Module
import MarkerDoc.Proofs.Scanner
import MarkerDoc.Proofs.Text

/-!
# Written sources

An outline is the documentation of a file before it is written down: the name of its package with
the lines about it, and its routines, each with the lines about it and possibly an example.  Here an
outline is laid out as source text, one element to a line, and the elements of that text are
computed: line for line, the scanner finds what was written.
-/

namespace MarkerDoc

/-- The lines of an example test, and the lines of the description that follow it. -/
structure Outline.Example where
  test : List String
  after : List String

structure Outline.Routine where
  name : String
  description : List String
  example? : Option Outline.Example

/-- The documentation of a file before it is written down.  The name of the package is given by its
segments. -/
structure Outline where
  segments : List String
  description : List String
  routines : List Outline.Routine

inductive WrittenLine where
  | package (name : String)
  | doc (marker : Marker) (text : String)
  | routine (name : String)

/-- What a comment line with the marker begins with. -/
def Marker.lead (marker : Marker) : String :=
  marker.lead?.getD "#"

namespace WrittenLine

def text : WrittenLine → String
  | .package name => "package " ++ name ++ ";"
  | .doc marker text => marker.lead ++ " " ++ text
  | .routine name => "sub " ++ name ++ " \x7b\x7d"

/-- The text of some lines, each with the line break that ends it. -/
def textOf (lines : List WrittenLine) : List Char :=
  lines.flatMap fun line => line.text.toList ++ ['\n']

end WrittenLine

namespace Outline

/-- The documentation lines of a routine, with an example between fences. -/
def Routine.docLines (r : Routine) : List String :=
  r.description ++
    match r.example? with
    | none => []
    | some e => DocBlock.fence :: e.test ++ DocBlock.fence :: e.after

def Routine.lines (r : Routine) : List WrittenLine :=
  r.docLines.map (.doc .itemDoc) ++ [.routine r.name]

def packageName (o : Outline) : String :=
  namespaceSeparator.intercalate o.segments

def lines (o : Outline) : List WrittenLine :=
  .package o.packageName :: o.description.map (.doc .packageDoc) ++ o.routines.flatMap Routine.lines

def source (o : Outline) : String :=
  String.ofList (WrittenLine.textOf o.lines)

end Outline

/-! ## The tokens of written lines -/

/-- A qualified name that is not one of the words that open a declaration. -/
def IsDeclarableName (name : String) : Prop :=
  Lexeme.IsName name ∧ name ∉ ["package", "sub", "use"]

namespace WrittenLine

/-- What a line must keep to so that it is read back as one element. -/
def Fits : WrittenLine → Prop
  | .package name => IsDeclarableName name
  | .doc _ text => '\n' ∉ text.toList ∧ text.toList.getLast? ≠ some '\r'
  | .routine name => IsDeclarableName name

/-- The kind of token that a comment line with the marker is. -/
def tokenKind : Marker → Token.Kind
  | .packageDoc => .packageDoc
  | .itemDoc => .itemDoc
  | .plain => .comment

/-- The tokens of a line that starts at a byte offset. -/
def tokens (offset : Nat) : WrittenLine → List Token
  | .package name =>
    [⟨.package, offset, "package"⟩, ⟨.bareWord, offset + 8, name⟩,
      ⟨.semicolon, offset + 8 + name.utf8ByteSize, ";"⟩]
  | .doc marker text => [⟨tokenKind marker, offset, marker.lead ++ " " ++ text⟩]
  | .routine name =>
    [⟨.sub, offset, "sub"⟩, ⟨.bareWord, offset + 4, name⟩,
      ⟨.leftBrace, offset + 4 + name.utf8ByteSize + 1, "\x7b"⟩,
      ⟨.rightBrace, offset + 4 + name.utf8ByteSize + 2, "\x7d"⟩]

def nextOffset (offset : Nat) (line : WrittenLine) : Nat :=
  offset + line.text.utf8ByteSize + 1

/-- The tokens of some lines, the first of which starts at a byte offset. -/
def tokensFrom : Nat → List WrittenLine → List Token
  | _, [] => []
  | offset, line :: lines => line.tokens offset ++ tokensFrom (line.nextOffset offset) lines

end WrittenLine

namespace WrittenLine

open Token

/-- A comment line begins with a number sign, and what follows decides its kind. -/
theorem exists_body (marker : Marker) (text : String) :
    ∃ lead, (doc marker text).text.toList = '#' :: (lead ++ text.toList) ∧ '\n' ∉ lead ∧
      ∀ after, Lexeme.ofComment (lead ++ after) = tokenKind marker := by
  cases marker with
  | packageDoc =>
      exact ⟨['#', '!', ' '], by simp [WrittenLine.text, Marker.lead, Marker.lead?], by decide,
        fun _ => rfl⟩
  | itemDoc =>
      exact ⟨['#', '#', ' '], by simp [WrittenLine.text, Marker.lead, Marker.lead?], by decide,
        fun _ => rfl⟩
  | plain =>
      exact ⟨[' '], by simp [WrittenLine.text, Marker.lead, Marker.lead?], by decide,
        fun _ => rfl⟩

theorem lexAt_doc
    (cursor : Cursor) {marker : Marker} {text : String} (rest : List Char)
    (hfits : (doc marker text).Fits) :
    lexAt cursor ((doc marker text).text.toList ++ '\n' :: rest) =
      (doc marker text).tokens cursor.offset ++
        lexAt ⟨(doc marker text).nextOffset cursor.offset, some '\n', cursor.previous⟩ rest := by
  obtain ⟨lead, htext, hlead, hkind⟩ := exists_body marker text
  have hbody : '\n' ∉ lead ++ text.toList := by
    simp [hlead, hfits.1]
  have hline : String.ofList ('#' :: (lead ++ text.toList)) = (doc marker text).text := by
    rw [← htext, String.ofList_toList]
  rw [htext, Token.lexAt_comment cursor rest hbody, List.append_assoc, hkind, hline, ← htext,
    byteSize_toList]
  rfl

/-- A package declaration is its keyword, its name and a semicolon. -/
theorem lexAt_package
    (cursor : Cursor) {name : String} (rest : List Char) (hfits : (package name).Fits) :
    ∃ previous, lexAt cursor ((package name).text.toList ++ '\n' :: rest) =
      (package name).tokens cursor.offset ++
        lexAt ⟨(package name).nextOffset cursor.offset, some '\n', previous⟩ rest := by
  have htext : (package name).text.toList ++ '\n' :: rest =
      "package".toList ++ ' ' :: (name.toList ++ ';' :: '\n' :: rest) := by
    simp [WrittenLine.text]
  obtain ⟨before, previous, hlex⟩ := Token.lexAt_name
    ⟨cursor.offset + 7 + 1, some ' ', some ⟨.package, cursor.offset, "package"⟩⟩
    hfits.1 hfits.2 (Lexeme.endsName_cons (by decide) (by decide)) rfl
    (fun _ ht => Token.continuation?_semicolon ('\n' :: rest) ht)
  have hoffset : (package name).nextOffset cursor.offset =
      cursor.offset + 7 + 1 + name.utf8ByteSize + 1 + 1 := by
    have hlead : "package ".utf8ByteSize = 8 := rfl
    have hend : ";".utf8ByteSize = 1 := rfl
    simp only [nextOffset, WrittenLine.text, String.utf8ByteSize_append, hlead, hend]
    omega
  rw [htext, Token.lexAt_keyword cursor _ Lexeme.isName_package rfl (.inl rfl),
    show "package".utf8ByteSize = 7 from rfl, hlex, Token.lexAt_mark _ (by decide) rfl (.inl rfl),
    Token.lexAt_newline, hoffset]
  exact ⟨_, rfl⟩

/-- The declaration of a routine is its keyword, its name and an empty body. -/
theorem lexAt_routine
    (cursor : Cursor) {name : String} (rest : List Char) (hfits : (routine name).Fits) :
    ∃ previous, lexAt cursor ((routine name).text.toList ++ '\n' :: rest) =
      (routine name).tokens cursor.offset ++
        lexAt ⟨(routine name).nextOffset cursor.offset, some '\n', previous⟩ rest := by
  have htext : (routine name).text.toList ++ '\n' :: rest =
      "sub".toList ++ ' ' :: (name.toList ++
        ' ' :: Char.ofNat 0x7B :: Char.ofNat 0x7D :: '\n' :: rest) := by
    simp [WrittenLine.text]
  obtain ⟨before, previous, hlex⟩ := Token.lexAt_name
    ⟨cursor.offset + 3 + 1, some ' ', some ⟨.sub, cursor.offset, "sub"⟩⟩
    hfits.1 hfits.2 (Lexeme.endsName_cons (by decide) (by decide)) rfl
    (fun _ ht => Token.continuation?_after_sub
      (' ' :: Char.ofNat 0x7B :: Char.ofNat 0x7D :: '\n' :: rest) rfl ht)
  have hoffset : (routine name).nextOffset cursor.offset =
      cursor.offset + 3 + 1 + name.utf8ByteSize + 1 + 1 + 1 + 1 := by
    have hlead : "sub ".utf8ByteSize = 4 := rfl
    have hend : " \x7b\x7d".utf8ByteSize = 3 := rfl
    simp only [nextOffset, WrittenLine.text, String.utf8ByteSize_append, hlead, hend]
    omega
  rw [htext, Token.lexAt_keyword cursor _ Lexeme.isName_sub rfl (.inr (.inl rfl)),
    show "sub".utf8ByteSize = 3 from rfl, hlex, Token.lexAt_space,
    Token.lexAt_mark _ (by decide) rfl (.inr (.inl rfl)),
    Token.lexAt_mark _ (by decide) rfl (.inr (.inr rfl)), Token.lexAt_newline, hoffset]
  exact ⟨_, rfl⟩

theorem lexAt_line
    (cursor : Cursor) {line : WrittenLine} (rest : List Char) (hfits : line.Fits) :
    ∃ previous, lexAt cursor (line.text.toList ++ '\n' :: rest) =
      line.tokens cursor.offset ++
        lexAt ⟨line.nextOffset cursor.offset, some '\n', previous⟩ rest := by
  cases line with
  | package name => exact lexAt_package cursor rest hfits
  | doc marker text => exact ⟨_, lexAt_doc cursor rest hfits⟩
  | routine name => exact lexAt_routine cursor rest hfits

theorem lexAt_textOf
    (cursor : Cursor) {lines : List WrittenLine} (hfits : ∀ line ∈ lines, line.Fits) :
    lexAt cursor (textOf lines) = tokensFrom cursor.offset lines := by
  induction lines generalizing cursor with
  | nil =>
      exact Token.lexAt_nil cursor
  | cons line lines ih =>
      obtain ⟨previous, hline⟩ := lexAt_line cursor (textOf lines) (hfits line (by simp))
      have htext : textOf (line :: lines) = line.text.toList ++ '\n' :: textOf lines := by
        simp [textOf]
      rw [htext, hline, ih _ fun l hl => hfits l (by simp [hl])]
      rfl

/-! ## The elements of written lines -/

/-- The element that a line is, given its place. -/
def element (offset line : Nat) : WrittenLine → Element
  | .package name =>
    { kind := .package name, text := "package " ++ name,
      span := ⟨offset, offset + 8 + name.utf8ByteSize⟩, line }
  | .doc marker text =>
    { kind := .comment marker, text := marker.lead ++ " " ++ text,
      span := ⟨offset, offset + (marker.lead ++ " " ++ text).utf8ByteSize⟩, line }
  | .routine name =>
    { kind := .routine name, text := "sub " ++ name,
      span := ⟨offset, offset + 4 + name.utf8ByteSize + 3⟩, line }

/-- The elements of some lines, given the place of the first. -/
def elementsFrom : Nat → Nat → List WrittenLine → List Element
  | _, _, [] => []
  | offset, line, written :: rest =>
    written.element offset line :: elementsFrom (written.nextOffset offset) (line + 1) rest

/-- Where a line begins: the text in front of it is whole lines. -/
structure LineStart (source : String) (offset line : Nat) : Prop where
  line_eq : lineAt source offset = line
  opens : opensLine source offset = true

theorem lineStart_byteSize
    {source : String} {front rest : List Char} (h : source.toList = front ++ rest)
    (hfront : front = [] ∨ front.getLast? = some '\n') :
    LineStart source (byteSize front) (1 + front.count '\n') :=
  ⟨lineAt_byteSize h, opensLine_byteSize h hfront⟩

/-- A written comment line keeps its text: it does not end in a carriage return. -/
theorem dropEndWhile_doc
    {marker : Marker} {text : String} (hfits : (doc marker text).Fits) :
    String.ofList (Text.dropEndWhile (· == '\r') (marker.lead ++ " " ++ text).toList) =
      marker.lead ++ " " ++ text := by
  rw [Text.dropEndWhile_of_getLast?, String.ofList_toList]
  intro c hc
  rw [beq_eq_false_iff_ne]
  rintro rfl
  rw [String.toList_append, List.getLast?_append, Option.or_eq_some_iff] at hc
  rcases hc with hc | ⟨-, hc⟩
  · exact hfits.2 hc
  · simp at hc

theorem elements_doc
    {source : String} {offset line : Nat} {marker : Marker} {text : String} (ts : List Token)
    (hplace : LineStart source offset line) (hfits : (doc marker text).Fits) :
    Scan.elements source ((doc marker text).tokens offset ++ ts) =
      (doc marker text).element offset line :: Scan.elements source ts := by
  have helement : Scan.commentElement source marker
      ⟨tokenKind marker, offset, marker.lead ++ " " ++ text⟩ ts =
        (doc marker text).element offset line := by
    simp only [Scan.commentElement, Scan.element, hplace.opens, hplace.line_eq, if_true,
      dropEndWhile_doc hfits, element]
    simp [Span.merge, Token.span, Token.stop]
  have hstep : Scan.step source ⟨tokenKind marker, offset, marker.lead ++ " " ++ text⟩ ts =
      (some ((doc marker text).element offset line), 0) := by
    rw [← helement]
    cases marker <;> rfl
  rw [tokens, List.singleton_append, Scan.elements_cons, hstep]
  rfl

theorem elements_package
    {source : String} {offset line : Nat} {name : String} (ts : List Token)
    (hplace : LineStart source offset line) :
    Scan.elements source ((package name).tokens offset ++ ts) =
      (package name).element offset line :: Scan.elements source ts := by
  have hsize : "package".utf8ByteSize = 7 := rfl
  have hjoined : Scan.joined [⟨.package, offset, "package"⟩, ⟨.bareWord, offset + 8, name⟩] =
      "package " ++ name := by
    simp [Scan.joined, Scan.joinedFrom, Token.Kind.isComment, Token.stop, hsize,
      ← String.append_assoc]
  have hstep : Scan.step source ⟨.package, offset, "package"⟩
      (⟨.bareWord, offset + 8, name⟩ ::
        ⟨.semicolon, offset + 8 + name.utf8ByteSize, ";"⟩ :: ts) =
      (some ((package name).element offset line), 2) := by
    simp [Scan.step, Scan.packageElement, Scan.packageLength, Token.Kind.isComment, Scan.element,
      hjoined, hplace.line_eq, element, Span.merge, Token.span, Token.stop, hsize]
    omega
  rw [tokens, List.cons_append, List.cons_append, List.cons_append, List.nil_append,
    Scan.elements_cons, hstep]
  rfl

theorem elements_routine
    {source : String} {offset line : Nat} {name : String} (ts : List Token)
    (hplace : LineStart source offset line) :
    Scan.elements source ((routine name).tokens offset ++ ts) =
      (routine name).element offset line :: Scan.elements source ts := by
  have hsize : "sub".utf8ByteSize = 3 := rfl
  have hbrace : "\x7d".utf8ByteSize = 1 := rfl
  have hjoined : Scan.joined [⟨.sub, offset, "sub"⟩, ⟨.bareWord, offset + 4, name⟩] =
      "sub " ++ name := by
    simp [Scan.joined, Scan.joinedFrom, Token.Kind.isComment, Token.stop, hsize,
      ← String.append_assoc]
  have hstep : Scan.step source ⟨.sub, offset, "sub"⟩
      (⟨.bareWord, offset + 4, name⟩ ::
        ⟨.leftBrace, offset + 4 + name.utf8ByteSize + 1, "\x7b"⟩ ::
        ⟨.rightBrace, offset + 4 + name.utf8ByteSize + 2, "\x7d"⟩ :: ts) =
      (some ((routine name).element offset line), 3) := by
    simp [Scan.step, Scan.routineElement, Scan.signatureLength, Scan.blockLength,
      Scan.blockLengthFrom, Scan.element, hjoined, hplace.line_eq, element, Span.merge,
      Token.span, Token.stop, hbrace]
    omega
  rw [tokens, List.cons_append, List.cons_append, List.cons_append, List.cons_append,
    List.nil_append, Scan.elements_cons, hstep]
  rfl

theorem elements_line
    {source : String} {offset line : Nat} {written : WrittenLine} (ts : List Token)
    (hplace : LineStart source offset line) (hfits : written.Fits) :
    Scan.elements source (written.tokens offset ++ ts) =
      written.element offset line :: Scan.elements source ts := by
  cases written with
  | package name => exact elements_package ts hplace
  | doc marker text => exact elements_doc ts hplace hfits
  | routine name => exact elements_routine ts hplace

theorem newline_not_mem_name {name : String} (h : Lexeme.IsName name) : '\n' ∉ name.toList := by
  intro hmem
  rcases h.mem hmem with hchar | hcolon
  · revert hchar
    decide
  · revert hcolon
    decide

theorem Fits.newline_not_mem {written : WrittenLine} (h : written.Fits) :
    '\n' ∉ written.text.toList := by
  cases written with
  | package name =>
      simp [WrittenLine.text, newline_not_mem_name h.1]
  | doc marker text =>
      cases marker <;> simp [WrittenLine.text, Marker.lead, Marker.lead?, h.1]
  | routine name =>
      simp [WrittenLine.text, newline_not_mem_name h.1]

/-- Line for line, the scanner finds what was written behind a front of whole lines. -/
theorem elements_tokensFrom
    {source : String} {front : List Char} {lines : List WrittenLine}
    (hsource : source.toList = front ++ textOf lines)
    (hfront : front = [] ∨ front.getLast? = some '\n')
    (hfits : ∀ written ∈ lines, written.Fits) :
    Scan.elements source (tokensFrom (byteSize front) lines) =
      elementsFrom (byteSize front) (1 + front.count '\n') lines := by
  induction lines generalizing front with
  | nil =>
      rw [tokensFrom, elementsFrom, Scan.elements_nil]
  | cons written lines ih =>
      have hline := hfits written (by simp)
      have hplace := lineStart_byteSize hsource hfront
      have hsplit : source.toList =
          (front ++ (written.text.toList ++ ['\n'])) ++ textOf lines := by
        simpa [textOf] using hsource
      have hoffset : written.nextOffset (byteSize front) =
          byteSize (front ++ (written.text.toList ++ ['\n'])) := by
        rw [byteSize_append, byteSize_append, byteSize_toList]
        rfl
      have hcount : 1 + front.count '\n' + 1 =
          1 + (front ++ (written.text.toList ++ ['\n'])).count '\n' := by
        simp [List.count_eq_zero_of_not_mem hline.newline_not_mem, Nat.add_assoc]
      rw [tokensFrom, elementsFrom, elements_line _ hplace hline, hoffset, hcount,
        ih hsplit (.inr (by simp)) fun l hl => hfits l (by simp [hl])]

/-- The elements of a written text. -/
theorem scan_textOf
    {lines : List WrittenLine} (hfits : ∀ written ∈ lines, written.Fits) :
    Element.scan (String.ofList (textOf lines)) = elementsFrom 0 1 lines := by
  have htokens : Token.lex (String.ofList (textOf lines)) = tokensFrom 0 lines := by
    rw [Token.lex_eq_lexAt, String.toList_ofList]
    exact lexAt_textOf .start hfits
  have hstart : (String.ofList (textOf lines)).toList = [] ++ textOf lines := by simp
  rw [Element.scan, htokens]
  exact elements_tokensFrom hstart (.inl rfl) hfits

end WrittenLine

end MarkerDoc
