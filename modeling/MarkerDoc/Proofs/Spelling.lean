import MarkerDoc.Element.Scan
import MarkerDoc.Proofs.Coverage

/-!
# Texts spelled by tokens

The scanner puts the text of a declaration together from tokens, with one space wherever there is a
gap between two of them.  If nothing but blanks stands in the gaps, this is the text of the source
with every run of blanks written as one space.
-/

namespace MarkerDoc.Token

/-- Tokens that make up a text from an offset on, with nothing but blanks between them. -/
inductive Spells : Nat → List Token → List Char → Prop
  | nil {offset : Nat} : Spells offset [] []
  | blank {offset : Nat} {c : Char} {ts : List Token} {cs : List Char} (hc : c ∈ gapCharacters)
      (h : Spells (offset + c.utf8Size) ts cs) : Spells offset ts (c :: cs)
  | token {t : Token} {ts : List Token} {cs : List Char} (hne : t.text ≠ "")
      (hblank : ∀ c ∈ t.text.toList, Text.isBlank c = false) (hcomment : t.kind.isComment = false)
      (h : Spells t.stop ts cs) : Spells t.start (t :: ts) (t.text.toList ++ cs)

theorem isBlank_of_mem_gapCharacters {c : Char} (h : c ∈ gapCharacters) :
    Text.isBlank c = true := by
  have hall : gapCharacters.all Text.isBlank = true := by decide
  exact List.all_eq_true.mp hall c h

/-- The words of a text, with the word under way, as one text again. -/
def collapsedFrom (word cs : List Char) : String :=
  Text.joinWith " " ((Text.wordsFrom word cs).map String.ofList)

theorem collapsedFrom_blank
    {c : Char} (hc : Text.isBlank c = true) (cs : List Char) :
    collapsedFrom [] (c :: cs) = collapsedFrom [] cs := by
  simp [collapsedFrom, Text.wordsFrom, hc]

theorem collapsedFrom_append
    {run : List Char} (hrun : ∀ c ∈ run, Text.isBlank c = false) (word cs : List Char) :
    collapsedFrom word (run ++ cs) = collapsedFrom (run.reverse ++ word) cs := by
  rw [collapsedFrom, Text.wordsFrom_append hrun]
  rfl

theorem wordsFrom_ne_nil {word : List Char} (hword : word ≠ []) (cs : List Char) :
    Text.wordsFrom word cs ≠ [] := by
  intro hnil
  have hhead := Text.wordsFrom_head? word hword cs
  simp [hnil] at hhead

theorem joinWith_cons
    (separator s : String) {ss : List String} (hss : ss ≠ []) :
    Text.joinWith separator (s :: ss) = s ++ separator ++ Text.joinWith separator ss := by
  obtain ⟨t, rest, rfl⟩ := List.exists_cons_of_ne_nil hss
  rfl

/-- What the tokens of a spelled text come to, behind a word under way, behind a blank, and at the
start. -/
structure Collapses (offset : Nat) (ts : List Token) (cs : List Char) : Prop where
  inWord : ∀ word, word ≠ [] →
    collapsedFrom word cs = String.ofList word.reverse ++ Scan.joinedFrom (some offset) ts
  behindBlank : ∀ last < offset, ∀ word : List Char,
    Text.joinWith " " (String.ofList word.reverse :: (Text.wordsFrom [] cs).map String.ofList) =
      String.ofList word.reverse ++ Scan.joinedFrom (some last) ts
  atStart : collapsedFrom [] cs = Scan.joinedFrom none ts

theorem Spells.collapses
    {offset : Nat} {ts : List Token} {cs : List Char} (h : Spells offset ts cs) :
    Collapses offset ts cs := by
  induction h with
  | nil =>
      constructor
      · intro word hword
        simp [collapsedFrom, Text.wordsFrom, hword, Text.joinWith, Scan.joinedFrom]
      · intro last _ word
        simp [Text.wordsFrom, Text.joinWith, Scan.joinedFrom]
      · rfl
  | @blank offset c ts cs hc h ih =>
      have hblank := isBlank_of_mem_gapCharacters hc
      have hpos := c.utf8Size_pos
      have hskip : Text.wordsFrom [] (c :: cs) = Text.wordsFrom [] cs := by
        simp [Text.wordsFrom, hblank]
      constructor
      · intro word hword
        have hwords : Text.wordsFrom word (c :: cs) = word.reverse :: Text.wordsFrom [] cs := by
          simp [Text.wordsFrom, hblank, hword]
        rw [collapsedFrom, hwords, List.map_cons]
        exact ih.behindBlank offset (by omega) word
      · intro last hlast word
        rw [hskip]
        exact ih.behindBlank last (by omega) word
      · rw [collapsedFrom_blank hblank]
        exact ih.atStart
  | @token t ts cs hne hblank hcomment h ih =>
      have htext : t.text.toList.reverse ≠ [] := by
        simpa using hne
      have hword : collapsedFrom [] (t.text.toList ++ cs) =
          t.text ++ Scan.joinedFrom (some t.stop) ts := by
        rw [collapsedFrom_append hblank, List.append_nil, ih.inWord _ htext, List.reverse_reverse,
          String.ofList_toList]
      constructor
      · intro word _
        rw [collapsedFrom_append hblank, ih.inWord _ (by simp [htext])]
        simp [Scan.joinedFrom, hcomment, String.append_assoc]
      · intro last hlast word
        have hwords : (Text.wordsFrom [] (t.text.toList ++ cs)).map String.ofList ≠ [] := by
          rw [Text.wordsFrom_append hblank]
          simpa using wordsFrom_ne_nil (by simpa using htext) cs
        rw [joinWith_cons _ _ hwords]
        change _ ++ collapsedFrom [] (t.text.toList ++ cs) = _
        rw [hword]
        simp [Scan.joinedFrom, hcomment, hlast, String.append_assoc]
      · rw [hword]
        simp [Scan.joinedFrom, hcomment]

theorem Spells.gap
    {offset : Nat} {gap cs : List Char} {ts : List Token} (hgap : ∀ c ∈ gap, c ∈ gapCharacters)
    (h : Spells (offset + byteSize gap) ts cs) : Spells offset ts (gap ++ cs) := by
  induction gap generalizing offset with
  | nil =>
      exact h
  | cons c gap ih =>
      obtain ⟨hc, hrest⟩ := List.forall_mem_cons.mp hgap
      rw [byteSize_cons, ← Nat.add_assoc] at h
      exact .blank hc (ih hrest h)

theorem Cursor.past_past (cursor : Cursor) (run run' : List Char) :
    (cursor.past run).past run' = cursor.past (run ++ run') := by
  simp [Cursor.past, byteSize_append, lastOr, List.getLast?_append, Nat.add_assoc, Option.or_assoc]

theorem lexAt_gap
    (cursor : Cursor) {gap : List Char} (hgap : ∀ c ∈ gap, c ∈ gapCharacters) (cs : List Char) :
    lexAt cursor (gap ++ cs) = lexAt (cursor.past gap) cs := by
  induction gap generalizing cursor with
  | nil =>
      rfl
  | cons c gap ih =>
      obtain ⟨hc, hrest⟩ := List.forall_mem_cons.mp hgap
      have hpod : ¬ cursor.AtPod (c :: (gap ++ cs)) :=
        not_atPod (ne_of_mem_of_not_mem hc (by decide))
      have hscan : Lexeme.scan c (gap ++ cs) = (.blank, 0) ∨
          Lexeme.scan c (gap ++ cs) = (.newline, 0) := by
        rcases (mem_gapCharacters_iff c).mp hc with hspacing | rfl
        · exact .inl (by simp [Lexeme.scan, hspacing])
        · exact .inr rfl
      rw [List.cons_append, lexAt_of_step (.gap hpod hscan), Option.toList_none, List.nil_append,
        ih _ hrest, Cursor.past_past]
      rfl

/-- The lexer passes blanks and keeps the token that the next one is judged by. -/
theorem exists_lexAt_gap
    (cursor : Cursor) {gap : List Char} (hgap : ∀ c ∈ gap, c ∈ gapCharacters) (cs : List Char) :
    ∃ next : Cursor, next.offset = cursor.offset + byteSize gap ∧
      next.previous = cursor.previous ∧ lexAt cursor (gap ++ cs) = lexAt next cs :=
  ⟨cursor.past gap, rfl, rfl, lexAt_gap cursor hgap cs⟩

/-- The text of tokens is the text they spell, with every run of blanks written as one space. -/
theorem Spells.joined_eq
    {offset : Nat} {ts : List Token} {cs : List Char} (h : Spells offset ts cs) :
    Scan.joined ts = Text.joinWith " " (Text.words (String.ofList cs)) := by
  rw [Scan.joined, ← h.collapses.atStart, Text.words, String.toList_ofList]
  rfl

end MarkerDoc.Token
