import MarkerDoc.Proofs.Lexer
import MarkerDoc.Proofs.Text

/-!
# Tokens account for the whole source

A source is its tokens with gaps before, between and behind them.  Nothing is lost in a gap: it is
made up of blanks, line breaks and embedded documentation blocks, each of which begins at the start
of a line and runs through the first line that closes it.  Only the gap behind the last token may
hold more, namely everything from an end marker on.

The gaps are described by the text alone.  That the lexer leaves exactly such gaps is an invariant
of its steps: the layout of the text ahead, seen from the characters already passed.
-/

namespace MarkerDoc

/-- A position at the start of a line, told by the text in front of it. -/
def AtLineStart (front : List Char) : Prop :=
  front = [] ∨ front.getLast? = some '\n'

namespace Pod

/-! ## Documentation blocks -/

/-- A line together with the line break that ends it. -/
def IsWholeLine (line : List Char) : Prop :=
  ∃ text, '\n' ∉ text ∧ line = text ++ ['\n']

/-- A line that closes a block: `=cut`, and then white space or nothing. -/
def IsCutLine (line : List Char) : Prop :=
  ∃ rest, line = "=cut".toList ++ rest ∧ ∀ c ∈ rest.head?, Text.isBlank c = true

/-- A documentation block, given the text behind it.  It runs through the first closing line, or
without one to the end of the text. -/
structure IsBlock (block rest : List Char) : Prop where
  opens : ∃ letter tail, block = '=' :: letter :: tail ∧ letter.isAlpha = true
  lines : ∃ (lines : List (List Char)) (last : List Char), block = lines.flatten ++ last ∧
    (∀ line ∈ lines, IsWholeLine line ∧ ¬ IsCutLine line) ∧
    (IsWholeLine last ∧ IsCutLine last ∨ '\n' ∉ last ∧ rest = [])

theorem isCut_iff (line : List Char) : isCut line = true ↔ IsCutLine line := by
  unfold isCut IsCutLine
  cases hlead : Text.afterLead? "=cut".toList line with
  | none =>
      simp only [Bool.false_eq_true, false_iff]
      rintro ⟨rest, rfl, -⟩
      rw [Text.afterLead?_append] at hlead
      cases hlead
  | some rest =>
      obtain rfl := Text.afterLead?_eq_some_iff.mp hlead
      cases rest <;> simp

/-- The block under way, whose last line so far is `line`, goes on for as long as `lengthFrom`
says. -/
theorem lengthFrom_spec (line cs : List Char) (hline : '\n' ∉ line) :
    ∃ (lines : List (List Char)) (last : List Char),
      line.reverse ++ cs.take (lengthFrom line cs) = lines.flatten ++ last ∧
      (∀ l ∈ lines, IsWholeLine l ∧ ¬ IsCutLine l) ∧
      (IsWholeLine last ∧ IsCutLine last ∨
        '\n' ∉ last ∧ cs.drop (lengthFrom line cs) = []) := by
  induction cs generalizing line with
  | nil =>
      exact ⟨[], line.reverse, by simp, by simp, .inr ⟨by simpa using hline, by simp⟩⟩
  | cons c cs ih =>
      by_cases hc : c = '\n'
      · subst hc
        have hwhole : IsWholeLine (line.reverse ++ ['\n']) :=
          ⟨line.reverse, by simpa using hline, rfl⟩
        by_cases hcut : isCut ('\n' :: line).reverse = true
        · refine ⟨[], line.reverse ++ ['\n'], ?_, by simp, .inl ⟨hwhole, ?_⟩⟩
          · simp [lengthFrom, List.reverse_cons ▸ hcut]
          · simpa [isCut_iff] using hcut
        · obtain ⟨lines, last, htext, hlines, hlast⟩ := ih [] (by simp)
          have hlength : lengthFrom line ('\n' :: cs) = lengthFrom [] cs + 1 := by
            rw [lengthFrom, if_pos rfl, if_neg hcut]
          rw [hlength]
          refine ⟨(line.reverse ++ ['\n']) :: lines, last, ?_, ?_, hlast⟩
          · simpa using htext
          · rintro l (_ | ⟨_, hl⟩)
            · exact ⟨hwhole, by simpa [isCut_iff] using hcut⟩
            · exact hlines l hl
      · have hline' : '\n' ∉ c :: line := by
          simpa using ⟨fun h => hc h.symm, hline⟩
        obtain ⟨lines, last, htext, hlines, hlast⟩ := ih (c :: line) hline'
        have hlength : lengthFrom line (c :: cs) = lengthFrom (c :: line) cs + 1 := by
          rw [lengthFrom, if_neg hc]
        rw [hlength]
        exact ⟨lines, last, by simpa using htext, hlines, hlast⟩

theorem opens_iff (cs : List Char) :
    opens cs = true ↔ ∃ letter tail, cs = '=' :: letter :: tail ∧ letter.isAlpha = true := by
  constructor
  · intro h
    unfold opens at h
    split at h
    · exact ⟨_, _, rfl, h⟩
    · cases h
  · rintro ⟨letter, tail, rfl, hletter⟩
    exact hletter

/-- What is passed at a documentation command is one whole block. -/
theorem isBlock_take
    {cs : List Char} (h : opens cs = true) :
    IsBlock (cs.take (length cs)) (cs.drop (length cs)) := by
  obtain ⟨lines, last, htext, hlines, hlast⟩ := lengthFrom_spec [] cs (by simp)
  refine ⟨?_, lines, last, htext, hlines, hlast⟩
  obtain ⟨letter, tail, rfl, hletter⟩ := (opens_iff cs).mp h
  have hne : letter ≠ '\n' := by
    rintro rfl
    exact absurd hletter (by decide)
  have hlength : length ('=' :: letter :: tail) = lengthFrom [letter, '='] tail + 2 := by
    simp [length, lengthFrom, hne]
  exact ⟨letter, tail.take (lengthFrom [letter, '='] tail), by simp [hlength], hletter⟩

end Pod

namespace Lexeme

/-! ## What the lexemes between tokens begin with -/

theorem ofWord_cases (word : String) (after : List Char) :
    (∃ kind, ofWord word after = .token kind) ∨
      ofWord word after = .endMarker ∧ (word = "__END__" ∨ word = "__DATA__") := by
  unfold ofWord
  split
  · exact .inl ⟨_, rfl⟩
  · split
    · exact .inl ⟨_, rfl⟩
    · exact .inl ⟨_, rfl⟩
    · exact .inl ⟨_, rfl⟩
    · exact .inr ⟨rfl, .inl rfl⟩
    · exact .inr ⟨rfl, .inr rfl⟩
    · exact .inl ⟨_, rfl⟩

/-- What the lexeme at the head of a text can be, by the first character. -/
theorem scan_cases (c : Char) (cs : List Char) :
    isSpacing c = true ∧ (scan c cs).1 = .blank ∨
      c = '\n' ∧ (scan c cs).1 = .newline ∨
      (isSpacing c = false ∧ c ≠ '\n') ∧
        ((∃ kind, (scan c cs).1 = .token kind) ∨
          (scan c cs).1 = .endMarker ∧
            ∃ marker, (marker = "__END__" ∨ marker = "__DATA__") ∧
              c :: cs.take (scan c cs).2 = marker.toList) := by
  by_cases hspacing : isSpacing c = true
  · exact .inl ⟨hspacing, by simp [scan, hspacing]⟩
  by_cases hnewline : c = '\n'
  · subst hnewline
    exact .inr (.inl ⟨rfl, rfl⟩)
  right; right
  refine ⟨⟨by simpa using hspacing, hnewline⟩, ?_⟩
  by_cases hstart : isWordStart c = true
  · rw [scan_of_isWordStart hstart]
    rcases ofWord_cases (String.ofList (c :: cs.take (bareWordTail cs)))
        (cs.drop (bareWordTail cs)) with htoken | ⟨hmarker, hword⟩
    · exact .inl htoken
    · refine .inr ⟨hmarker, _, hword, ?_⟩
      simp
  · left
    unfold scan
    simp only [hspacing, hnewline, hstart, if_false, Bool.false_eq_true]
    split_ifs <;> try exact ⟨_, rfl⟩
    unfold ofSigil
    split
    · exact ⟨_, rfl⟩
    · split_ifs <;> exact ⟨_, rfl⟩

end Lexeme

namespace Token

/-! ## Gaps -/

/-- The characters that may stand between tokens. -/
def gapCharacters : List Char :=
  [' ', '\t', '\r', Char.ofNat 0x0C, '\n']

theorem mem_gapCharacters_iff (c : Char) :
    c ∈ gapCharacters ↔ Lexeme.isSpacing c = true ∨ c = '\n' := by
  simp [gapCharacters, Lexeme.isSpacing, or_assoc]

/-- A gap, given the text in front of it and the text after it: characters from the list, and
documentation blocks that begin at the start of a line. -/
inductive IsGap (after : List Char) : List Char → List Char → Prop
  | nil {front : List Char} : IsGap after front []
  | character {front gap : List Char} {c : Char} (hc : c ∈ gapCharacters)
      (hgap : IsGap after (front ++ [c]) gap) : IsGap after front (c :: gap)
  | pod {front block gap : List Char} (hline : AtLineStart front)
      (hblock : Pod.IsBlock block (gap ++ after)) (hgap : IsGap after (front ++ block) gap) :
      IsGap after front (block ++ gap)

/-- The tokens of a text that stands behind `front`, with the gaps around them.  The last gap runs
to the end of the text or to an end marker at the start of a line. -/
inductive Layout : List Char → List Token → List Char → Prop
  | last {front gap : List Char} (hgap : IsGap [] front gap) : Layout front [] gap
  | marker {front gap after : List Char} {marker : String}
      (hmarker : marker = "__END__" ∨ marker = "__DATA__")
      (hgap : IsGap (marker.toList ++ after) front gap) (hline : AtLineStart (front ++ gap)) :
      Layout front [] (gap ++ (marker.toList ++ after))
  | token {front gap after : List Char} {t : Token} {ts : List Token} (hne : t.text ≠ "")
      (hgap : IsGap (t.text.toList ++ after) front gap) (hstart : t.start = byteSize (front ++ gap))
      (hrest : Layout (front ++ gap ++ t.text.toList) ts after) :
      Layout front (t :: ts) (gap ++ (t.text.toList ++ after))

/-- A piece that may open a gap lengthens the first gap of the text behind it. -/
theorem Layout.behind
    {front piece rest : List Char} {ts : List Token}
    (hpiece : ∀ gap after, gap ++ after = rest →
      IsGap after (front ++ piece) gap → IsGap after front (piece ++ gap))
    (h : Layout (front ++ piece) ts rest) : Layout front ts (piece ++ rest) := by
  cases h with
  | last hgap =>
      exact .last (hpiece _ [] (List.append_nil _) hgap)
  | @marker _ gap after marker hmarker hgap hline =>
      rw [← List.append_assoc]
      exact .marker hmarker (hpiece gap _ rfl hgap) (by rwa [← List.append_assoc])
  | @token _ gap after t ts hne hgap hstart hrest =>
      rw [← List.append_assoc]
      refine .token hne (hpiece gap _ rfl hgap) (by rwa [← List.append_assoc]) ?_
      rwa [← List.append_assoc front piece gap]

/-! ## The invariant of the lexer -/

theorem atLineStart_of_getLast?
    {front : List Char} (h : atLineStart front.getLast? = true) : AtLineStart front := by
  simpa [atLineStart, AtLineStart] using h

/-- The position of the lexer is where the text passed so far ends. -/
structure Cursor.After (cursor : Cursor) (front : List Char) : Prop where
  offset : cursor.offset = byteSize front
  before : cursor.before = front.getLast?

theorem Cursor.After.step
    {cursor next : Cursor} {front cs rest run : List Char} {found : Option Token}
    (h : cursor.After front) (hrun : Step.Passes cursor cs found next rest run) :
    next.After (front ++ run) := by
  constructor
  · rw [hrun.offset, h.offset, byteSize_append]
  · rw [hrun.before, List.getLast?_append, ← h.before]
    rfl

/-- What a step without a token passes may open a gap. -/
theorem Step.isGap
    {cursor next : Cursor} {front cs rest run gap after : List Char}
    (h : Step cursor cs none next rest) (hfront : cursor.After front)
    (hrun : Step.Passes cursor cs none next rest run) (hsplit : gap ++ after = rest)
    (hgap : IsGap after (front ++ run) gap) : IsGap after front (run ++ gap) := by
  have htext := hrun.text
  cases h with
  | @pod c cs hpod =>
      obtain ⟨hline, hopens⟩ := Bool.and_eq_true_iff.mp hpod
      rw [drop_podLength] at htext hsplit
      have hblock : run = (c :: cs).take (Pod.length (c :: cs)) :=
        List.append_cancel_right (htext.symm.trans (List.take_append_drop _ _).symm)
      subst hblock
      refine .pod (atLineStart_of_getLast? (hfront.before ▸ hline)) ?_ hgap
      rw [hsplit]
      exact Pod.isBlock_take hopens
  | @gap c cs n hpod hscan =>
      obtain rfl : run = [c] := List.append_cancel_right (htext.symm.trans rfl)
      refine .character ((mem_gapCharacters_iff c).mpr ?_) hgap
      rcases Lexeme.scan_cases c rest with ⟨hc, -⟩ | ⟨hc, -⟩ | ⟨-, ⟨kind, htoken⟩ | ⟨hmarker, -⟩⟩
      · exact .inl hc
      · exact .inr hc
      · rcases hscan with hscan | hscan <;> simp [hscan] at htoken
      · rcases hscan with hscan | hscan <;> simp [hscan] at hmarker

/-- Where the lexer halts, an end marker stands at the start of a line. -/
theorem layout_of_halts
    {cursor : Cursor} {front cs : List Char} (hfront : cursor.After front)
    (h : Halts cursor cs) : Layout front [] cs := by
  obtain ⟨c, rest, n, rfl, -, hscan, hstart⟩ := h
  rcases Lexeme.scan_cases c rest with
    ⟨-, hblank⟩ | ⟨-, hnewline⟩ | ⟨-, ⟨kind, htoken⟩ | ⟨-, marker, hmarker, htext⟩⟩
  · simp [hscan] at hblank
  · simp [hscan] at hnewline
  · simp [hscan] at htoken
  · have hsplit : c :: rest = [] ++ (marker.toList ++ rest.drop n) := by
      rw [← htext, hscan, List.nil_append, List.cons_append, List.take_append_drop]
    rw [hsplit]
    refine .marker hmarker .nil ?_
    rw [List.append_nil]
    exact atLineStart_of_getLast? (hfront.before ▸ hstart)

theorem Layout.of_step
    {cursor next : Cursor} {front cs rest run : List Char} {found : Option Token}
    {ts : List Token} (hstep : Step cursor cs found next rest) (hfront : cursor.After front)
    (hrun : Step.Passes cursor cs found next rest run) (h : Layout (front ++ run) ts rest) :
    Layout front (found.toList ++ ts) cs := by
  rw [hrun.text]
  cases found with
  | none =>
      exact h.behind fun gap after hsplit hgap => hstep.isGap hfront hrun hsplit hgap
  | some t =>
      obtain ⟨hstart, htext⟩ := hrun.token t rfl
      have hrunText : t.text.toList = run := by rw [htext, String.toList_ofList]
      rw [← hrunText, ← List.nil_append (t.text.toList ++ rest)]
      refine .token ?_ .nil ?_ ?_
      · intro hempty
        apply hrun.nonempty
        rw [← hrunText, hempty]
        rfl
      · rw [List.append_nil, hstart, hfront.offset]
      · rwa [List.append_nil, hrunText]

theorem layout_lexAt (cursor : Cursor) (cs front : List Char) (hfront : cursor.After front) :
    Layout front (lexAt cursor cs) cs := by
  refine lexAt_induction
    (P := fun cursor cs ts => ∀ front, cursor.After front → Layout front ts cs)
    ?_ ?_ ?_ cursor cs front hfront
  · intro cursor front _
    exact .last .nil
  · intro cursor cs hhalts front hfront
    exact layout_of_halts hfront hhalts
  · intro cursor cs found next rest hstep ih front hfront
    obtain ⟨run, hrun⟩ := hstep.exists_passes
    exact Layout.of_step hstep hfront hrun (ih _ (hfront.step hrun))

theorem layout_lex (source : String) : Layout [] (lex source) source.toList :=
  layout_lexAt .start source.toList [] ⟨rfl, rfl⟩

/-! ## What a layout says about the tokens -/

/-- Every token stands in the text where its offsets say. -/
theorem Layout.exists_split
    {front cs : List Char} {ts : List Token} (h : Layout front ts cs) {t : Token} (ht : t ∈ ts) :
    ∃ before after, cs = before ++ t.text.toList ++ after ∧
      t.start = byteSize (front ++ before) ∧ t.text ≠ "" := by
  induction h with
  | last => simp at ht
  | marker => simp at ht
  | @token front gap after u ts hne hgap hstart hrest ih =>
      rcases List.mem_cons.mp ht with rfl | ht
      · exact ⟨gap, after, (List.append_assoc ..).symm, hstart, hne⟩
      · obtain ⟨before, after', rfl, hstart', hne'⟩ := ih ht
        refine ⟨gap ++ u.text.toList ++ before, after', by simp, ?_, hne'⟩
        rw [hstart']
        simp

theorem Layout.pairwise
    {front cs : List Char} {ts : List Token} (h : Layout front ts cs) :
    ts.Pairwise fun t u => t.stop ≤ u.start := by
  induction h with
  | last => exact .nil
  | marker => exact .nil
  | @token front gap after t ts hne hgap hstart hrest ih =>
      refine List.pairwise_cons.mpr ⟨fun u hu => ?_, ih⟩
      obtain ⟨before, _, _, hstart', _⟩ := hrest.exists_split hu
      rw [stop, hstart, hstart', ← byteSize_toList, ← byteSize_append, byteSize_append _ before]
      exact Nat.le_add_right _ _

/-- The token is a piece of the source, at the place that its offsets give. -/
def StandsIn (source : String) (t : Token) : Prop :=
  ∃ before after, source = before ++ t.text ++ after ∧ before.utf8ByteSize = t.start

theorem standsIn_of_mem_lex {source : String} {t : Token} (h : t ∈ lex source) :
    t.StandsIn source := by
  obtain ⟨before, after, hsource, hstart, -⟩ := (layout_lex source).exists_split h
  refine ⟨String.ofList before, String.ofList after, ?_, ?_⟩
  · rw [← String.toList_inj]
    simpa using hsource
  · rw [utf8ByteSize_ofList, hstart, List.nil_append]

theorem start_lt_stop_of_mem_lex {source : String} {t : Token} (h : t ∈ lex source) :
    t.start < t.stop := by
  obtain ⟨-, -, -, -, hne⟩ := (layout_lex source).exists_split h
  have hpos : 0 < t.text.utf8ByteSize := by
    rw [← byteSize_toList]
    exact byteSize_pos (by simpa using hne)
  rw [stop]
  omega

/-- A token never begins with a character that gaps are made of. -/
theorem Step.head?_not_mem
    {cursor next : Cursor} {cs rest : List Char} {t : Token}
    (h : Step cursor cs (some t) next rest) :
    ∀ c ∈ t.text.toList.head?, c ∉ gapCharacters := by
  have hhead : ∀ (c : Char) (cs tail : List Char) (n : Nat) (lexeme : Lexeme),
      Lexeme.scan c cs = (lexeme, n) → lexeme ≠ .blank → lexeme ≠ .newline →
      ∀ d ∈ (String.ofList (c :: tail)).toList.head?, d ∉ gapCharacters := by
    intro c cs tail n lexeme hscan hblank hnewline d hd
    obtain rfl : c = d := by simpa using hd
    rw [mem_gapCharacters_iff]
    rcases Lexeme.scan_cases c cs with ⟨-, heq⟩ | ⟨-, heq⟩ | ⟨⟨hspacing, hline⟩, -⟩
    · exact absurd (by rw [← heq, hscan]) hblank
    · exact absurd (by rw [← heq, hscan]) hnewline
    · simp [hspacing, hline]
  cases h with
  | strayEnd hpod hscan hstart => exact hhead _ _ _ _ _ hscan (by simp) (by simp)
  | quoted hpod hscan hquote => exact hhead _ _ _ _ _ hscan (by simp) (by simp)
  | comment hpod hscan hkind => exact hhead _ _ _ _ _ hscan (by simp) (by simp)
  | plain hpod hscan hkind hquote => exact hhead _ _ _ _ _ hscan (by simp) (by simp)

theorem head?_not_mem_of_mem_lex {source : String} {t : Token} (h : t ∈ lex source) :
    ∀ c ∈ t.text.toList.head?, c ∉ gapCharacters := by
  rw [lex_eq_lexAt] at h
  revert h
  refine lexAt_induction
    (P := fun _ _ ts => t ∈ ts → ∀ c ∈ t.text.toList.head?, c ∉ gapCharacters)
    ?_ ?_ ?_ .start source.toList
  · simp
  · simp
  · intro cursor cs found next rest hstep ih ht
    rcases List.mem_append.mp ht with ht | ht
    · obtain rfl := Option.mem_toList.mp ht
      exact hstep.head?_not_mem
    · exact ih ht

/-- The tokens of a source are pieces of it that are not empty, in the order of their places and
without overlap, and the gaps around them account for all the rest. -/
theorem lex_accounts_for_source (source : String) :
    (∀ t ∈ lex source, t.start < t.stop ∧ t.StandsIn source ∧
      ∀ c ∈ t.text.toList.head?, c ∉ gapCharacters) ∧
      (lex source).Pairwise (fun t u => t.stop ≤ u.start) ∧
      Layout [] (lex source) source.toList :=
  ⟨fun _ ht => ⟨start_lt_stop_of_mem_lex ht, standsIn_of_mem_lex ht, head?_not_mem_of_mem_lex ht⟩,
    (layout_lex source).pairwise, layout_lex source⟩

end Token

end MarkerDoc
