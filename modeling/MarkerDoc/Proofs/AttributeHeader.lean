import MarkerDoc.Proofs.BlockStatement
import MarkerDoc.Proofs.Quoted
import MarkerDoc.Proofs.Spelling

/-!
# Attributes as they are declared

An attribute is declared by a keyword, its name, an arrow and a list.  The name may be bare or in
quotes, and between the tokens there may be any blanks, or none where the tokens do not need them.
Such a declaration is followed here through the lexer and the scanner: it is one element, whose text
is the declaration with every gap written as one space, except that a bare name that is an end
marker at the start of a line ends the source.
-/

namespace MarkerDoc

/-! ## Declarations as they are written -/

theorem isName_attributeKeyword : Lexeme.IsName Scan.attributeKeyword :=
  ⟨'h', ['a', 's'], rfl, by decide, .of_forall (List.all_eq_true.mp (by decide))⟩

/-- The declaration of an attribute as it is written, up to the parenthesis that opens its list:
the name, bare or in quotes, and the blanks behind the keyword, the name and the arrow. -/
structure AttributeHeader where
  name : String
  quote : Option Char
  behindKeyword : List Char
  behindName : List Char
  behindArrow : List Char
  isName : Lexeme.IsName name
  isQuote : ∀ q, quote = some q → q = '"' ∨ q = Char.ofNat 0x27
  keywordGap : ∀ c ∈ behindKeyword, c ∈ Token.gapCharacters
  nameGap : ∀ c ∈ behindName, c ∈ Token.gapCharacters
  arrowGap : ∀ c ∈ behindArrow, c ∈ Token.gapCharacters
  apart : quote = none → behindKeyword ≠ []

namespace AttributeHeader

def nameText (h : AttributeHeader) : List Char :=
  h.quote.toList ++ (h.name.toList ++ h.quote.toList)

/-- The characters of the declaration, through the parenthesis. -/
def text (h : AttributeHeader) : List Char :=
  Scan.attributeKeyword.toList ++ (h.behindKeyword ++ (h.nameText ++ (h.behindName ++
    '=' :: '>' :: (h.behindArrow ++ ['(']))))

/-- A gap in a statement: one space, however long it is. -/
def spaceFor (gap : List Char) : List Char :=
  if gap = [] then [] else [' ']

/-- The statement of the declaration, given its list. -/
def statement (h : AttributeHeader) (list : String) : String :=
  String.ofList (Scan.attributeKeyword.toList ++ (spaceFor h.behindKeyword ++ (h.nameText ++
    (spaceFor h.behindName ++ '=' :: '>' :: (spaceFor h.behindArrow ++ list.toList)))))

end AttributeHeader

namespace Token

/-! ## Reading a declaration -/

theorem head?_drop_operatorGap
    {gap rest body : List Char} {opener : Char}
    (h : (gap ++ '=' :: rest).drop (Quoted.operatorGap (gap ++ '=' :: rest)) = opener :: body) :
    opener ∈ gap ∨ opener = '=' := by
  induction gap with
  | nil =>
      right
      exact (List.cons.inj h).1.symm
  | cons c gap ih =>
      by_cases hc : (c == ' ' || c == '\t') = true
      · rw [List.cons_append, Quoted.operatorGap, List.takeWhile_cons_of_pos (by exact hc),
          List.length_cons, List.drop_succ_cons] at h
        exact (ih h).imp_left (List.mem_cons_of_mem c)
      · rw [List.cons_append, Quoted.operatorGap, List.takeWhile_cons_of_neg (by exact hc)] at h
        left
        rw [← (List.cons.inj h).1]
        exact List.mem_cons_self

/-- No quoted construct is opened in front of an arrow. -/
theorem continuation?_arrow
    {before : Option Char} {previous : Option Token} {token : Token} {gap : List Char}
    (hgap : ∀ c ∈ gap, c ∈ gapCharacters) (rest : List Char) (hkind : token.kind = .bareWord) :
    Quoted.continuation? before previous token (gap ++ '=' :: rest) = none := by
  have hextent : ∀ twoParts, Quoted.extent twoParts (gap ++ '=' :: rest) = none := by
    intro twoParts
    rw [Quoted.extent_eq]
    split
    · rfl
    · next opener body hdrop =>
        apply if_neg
        rcases head?_drop_operatorGap hdrop with hopener | rfl
        · intro hopens
          have hblank := isBlank_of_mem_gapCharacters (hgap opener hopener)
          rw [Quoted.isBlank_of_opensBody hopens] at hblank
          cases hblank
        · simp [Quoted.opensBody]
  simp [Quoted.continuation?, hkind, hextent]

theorem quotedTail_name
    {q : Char} {cs : List Char} (hq : q ≠ '\\') (hcs : ∀ c ∈ cs, c ≠ q ∧ c ≠ '\\')
    (rest : List Char) : Lexeme.quotedTail q (cs ++ q :: rest) = (true, cs.length + 1) := by
  induction cs with
  | nil =>
      exact Lexeme.quotedTail_close hq rest
  | cons c cs ih =>
      obtain ⟨⟨hc, hescape⟩, hcs⟩ := List.forall_mem_cons.mp hcs
      rw [List.cons_append, Lexeme.quotedTail_plain hescape hc, ih hcs]
      rfl

theorem ofWord_eq_endMarker_iff
    {word : String} {after : List Char} (hafter : after.head? ≠ some ':') :
    Lexeme.ofWord word after = .endMarker ↔ word = "__END__" ∨ word = "__DATA__" := by
  unfold Lexeme.ofWord
  rw [if_neg hafter]
  split <;> simp_all

theorem lexAt_quoted
    (cursor : Cursor) {q : Char} {name : String} (hq : q = '"' ∨ q = Char.ofNat 0x27)
    (hname : Lexeme.IsName name) (rest : List Char) :
    ∃ next : Cursor, next.offset = cursor.offset + byteSize (q :: (name.toList ++ [q])) ∧
      lexAt cursor (q :: (name.toList ++ q :: rest)) =
        ⟨.string, cursor.offset, String.ofList (q :: (name.toList ++ [q]))⟩ :: lexAt next rest := by
  have hscan : Lexeme.scan q (name.toList ++ q :: rest) =
      (.token .string, name.toList.length + 1) := by
    have hchars : ∀ c ∈ name.toList, c ≠ q ∧ c ≠ '\\' := by
      intro c hc
      have hchar := hname.mem hc
      constructor
      · rintro rfl
        rcases hq with rfl | rfl <;> revert hchar <;> decide
      · rintro rfl
        revert hchar
        decide
    have htail := quotedTail_name (by rcases hq with rfl | rfl <;> decide) hchars rest
    have hquoted : Lexeme.scan q (name.toList ++ q :: rest) =
        (.token (if (Lexeme.quotedTail q (name.toList ++ q :: rest)).1 then .string
          else .punctuation), (Lexeme.quotedTail q (name.toList ++ q :: rest)).2) := by
      rcases hq with rfl | rfl <;> rfl
    rw [hquoted, htail]
    rfl
  have htake : (name.toList ++ q :: rest).take (name.toList.length + 1) = name.toList ++ [q] := by
    rw [List.take_append]
    simp
  have hdrop : (name.toList ++ q :: rest).drop (name.toList.length + 1) = rest := by
    rw [List.drop_append]
    simp
  have hpod : ¬ cursor.AtPod (q :: (name.toList ++ q :: rest)) := by
    apply not_atPod
    rcases hq with rfl | rfl <;> decide
  have hstep : Step cursor (q :: (name.toList ++ q :: rest)) _ _ _ := .plain hpod hscan rfl rfl
  rw [htake, hdrop] at hstep
  exact ⟨_, rfl, lexAt_of_step hstep⟩

end Token

namespace AttributeHeader

open Token

/-- What follows the name, with the text behind the parenthesis. -/
def afterName (h : AttributeHeader) (after : List Char) : List Char :=
  h.behindName ++ '=' :: '>' :: (h.behindArrow ++ '(' :: after)

def afterKeyword (h : AttributeHeader) (after : List Char) : List Char :=
  h.behindKeyword ++ (h.nameText ++ h.afterName after)

/-- The name is taken for the end of the source: it is bare, and it is an end marker at the start of
a line. -/
def EndsTokens (h : AttributeHeader) : Prop :=
  h.quote = none ∧ (h.name = "__END__" ∨ h.name = "__DATA__") ∧
    h.behindKeyword.getLast? = some '\n'

variable (h : AttributeHeader)

theorem endsName_of_mem_gapCharacters
    {gap rest : List Char} (hgap : ∀ c ∈ gap, c ∈ gapCharacters) (hne : gap ≠ []) :
    Lexeme.EndsName (gap ++ rest) := by
  obtain ⟨c, gap, rfl⟩ := List.exists_cons_of_ne_nil hne
  have hc : c ∈ gapCharacters := hgap c List.mem_cons_self
  have hall : gapCharacters.all (fun c => !Lexeme.isWordChar c && c != ':') = true := by
    decide
  have hchar := List.all_eq_true.mp hall c hc
  simp only [Bool.and_eq_true, Bool.not_eq_true', bne_iff_ne] at hchar
  exact Lexeme.endsName_cons hchar.1 hchar.2

theorem exists_lexAt_keyword (cursor : Cursor) (after : List Char) :
    ∃ next : Cursor, next.offset = cursor.offset + byteSize Scan.attributeKeyword.toList ∧
      lexAt cursor (h.text ++ after) =
        ⟨.bareWord, cursor.offset, Scan.attributeKeyword⟩ ::
          lexAt next (h.afterKeyword after) := by
  have htext : h.text ++ after = Scan.attributeKeyword.toList ++ h.afterKeyword after := by
    simp [text, afterKeyword, afterName]
  -- A name that follows the keyword at once is in quotes.
  have hends : Lexeme.EndsName (h.afterKeyword after) := by
    by_cases hgap : h.behindKeyword = []
    · cases hquote : h.quote with
      | none => exact absurd hgap (h.apart hquote)
      | some q =>
          rw [afterKeyword, hgap, List.nil_append, nameText, hquote]
          rcases h.isQuote q hquote with rfl | rfl
          · exact Lexeme.endsName_cons (by decide) (by decide)
          · exact Lexeme.endsName_cons (by decide) (by decide)
    · exact endsName_of_mem_gapCharacters h.keywordGap hgap
  have hword : ∀ rest, Lexeme.ofWord Scan.attributeKeyword rest = .token .bareWord := by
    intro rest
    unfold Lexeme.ofWord
    split
    · rfl
    · rfl
  -- The keyword is none of the quote-like operators.
  have hquote : ∀ t : Token, t.kind = .bareWord → t.text = Scan.attributeKeyword →
      Quoted.continuation? cursor.before cursor.previous t (h.afterKeyword after) = none := by
    intro t hkind ht
    have hoperator : Quoted.operators.contains Scan.attributeKeyword = false := by
      decide
    simp only [Quoted.continuation?, hkind, ht, hoperator]
    rfl
  rw [htext]
  rcases lexAt_word cursor isName_attributeKeyword hends hquote with
    ⟨hmarker, -⟩ | ⟨kind, next, hkind, hnext, htokens⟩
  · rw [hword] at hmarker
    cases hmarker
  · obtain rfl : kind = .bareWord := by
      rw [hword] at hkind
      rcases hkind with hkind | ⟨-, -, hkind⟩
      · exact (Lexeme.token.inj hkind).symm
      · exact hkind
    exact ⟨next, hnext, htokens⟩

theorem endsName_afterName (after : List Char) : Lexeme.EndsName (h.afterName after) := by
  by_cases hgap : h.behindName = []
  · rw [afterName, hgap, List.nil_append]
    exact Lexeme.endsName_cons (by decide) (by decide)
  · exact endsName_of_mem_gapCharacters h.nameGap hgap

theorem atLineStart_past (cursor : Cursor) {gap : List Char} (hgap : gap ≠ []) :
    atLineStart (cursor.past gap).before = true ↔ gap.getLast? = some '\n' := by
  have hlast : gap.getLast? = some (gap.getLast hgap) := List.getLast?_eq_some_getLast hgap
  simp [atLineStart, Cursor.past, lastOr, hlast]

/-- The name is one token, unless the tokens end with it. -/
theorem exists_lexAt_name (cursor : Cursor) (after : List Char) :
    h.EndsTokens ∧ lexAt cursor (h.afterKeyword after) = [] ∨
    ¬ h.EndsTokens ∧ ∃ (kind : Kind) (next : Cursor), (kind.isWord = true ∨ kind = .string) ∧
      next.offset = cursor.offset + byteSize h.behindKeyword + byteSize h.nameText ∧
      lexAt cursor (h.afterKeyword after) =
        ⟨kind, cursor.offset + byteSize h.behindKeyword, String.ofList h.nameText⟩ ::
          lexAt next (h.afterName after) := by
  rw [afterKeyword, lexAt_gap cursor h.keywordGap]
  cases hquote : h.quote with
  | some q =>
      right
      obtain ⟨next, hnext, htokens⟩ := lexAt_quoted (cursor.past h.behindKeyword)
        (h.isQuote q hquote) h.isName (h.afterName after)
      have htext : h.nameText = q :: (h.name.toList ++ [q]) := by
        simp [nameText, hquote]
      refine ⟨fun hends => by simp [EndsTokens, hquote] at hends, .string, next, .inr rfl, ?_, ?_⟩
      · rw [hnext, htext]
        rfl
      · rw [htext, List.cons_append, List.append_assoc, List.singleton_append, htokens]
        rfl
  | none =>
      have htext : h.nameText = h.name.toList := by
        simp [nameText, hquote]
      have hends := h.endsName_afterName after
      have hmarker := @ofWord_eq_endMarker_iff h.name _ fun hc => (hends ':' hc).2 rfl
      -- A bare name has a gap in front of it, and the gap decides whether it begins a line.
      have hline := atLineStart_past cursor (h.apart hquote)
      rw [htext]
      rcases lexAt_word (cursor.past h.behindKeyword) h.isName hends
          (fun t ht _ => continuation?_arrow h.nameGap _ ht) with
        ⟨hend, hstart, htokens⟩ | ⟨kind, next, hkind, hnext, htokens⟩
      · exact .inl ⟨⟨hquote, hmarker.mp hend, hline.mp hstart⟩, htokens⟩
      · refine .inr ⟨?_, kind, next, .inl ?_, ?_, ?_⟩
        · rintro ⟨-, hname, hlast⟩
          rw [hmarker.mpr hname, hline.mpr hlast] at hkind
          simp at hkind
        · rcases hkind with hkind | ⟨-, -, rfl⟩
          · have hisWord := Lexeme.isWord_ofWord h.name (h.afterName after)
            rwa [hkind] at hisWord
          · rfl
        · rw [hnext, byteSize_toList]
          rfl
        · rw [htokens, String.ofList_toList]
          rfl

theorem exists_lexAt_arrow (cursor : Cursor) (after : List Char) :
    ∃ next : Cursor, lexAt cursor (h.afterName after) =
      ⟨.punctuation, cursor.offset + byteSize h.behindName, "="⟩ ::
      ⟨.punctuation, cursor.offset + byteSize h.behindName + 1, ">"⟩ ::
      ⟨.punctuation, cursor.offset + byteSize h.behindName + 2 + byteSize h.behindArrow, "("⟩ ::
        lexAt next after := by
  -- An arrow at the start of a line is no documentation command, for it goes on with no letter.
  have hpod : ∀ (cursor : Cursor) (rest : List Char), ¬ cursor.AtPod ('=' :: '>' :: rest) := by
    intro cursor rest
    simp [Cursor.AtPod, Pod.opens]
  rw [afterName, lexAt_gap cursor h.nameGap, lexAt_punctuation _ (hpod _ _) rfl (by decide),
    lexAt_punctuation _ (not_atPod (by decide)) rfl (by decide), lexAt_gap _ h.arrowGap,
    lexAt_punctuation _ (not_atPod (by decide)) rfl (by decide)]
  exact ⟨_, rfl⟩

section

open Scan

/-! ## The element of a declaration -/

theorem joinedFrom_behind
    {last : Nat} {gap : List Char} {t : Token} (hstart : t.start = last + byteSize gap)
    (hcomment : t.kind.isComment = false) (ts : List Token) :
    joinedFrom (some last) (t :: ts) =
      String.ofList (spaceFor gap) ++ t.text ++ joinedFrom (some t.stop) ts := by
  have hlt : last < t.start ↔ gap ≠ [] := by
    rw [hstart]
    constructor
    · rintro hlt rfl
      simp [byteSize] at hlt
    · intro hne
      have hpos := byteSize_pos hne
      omega
  rw [joinedFrom, if_neg (by simp [hcomment])]
  by_cases hgap : gap = [] <;> simp [hlt, hgap, spaceFor]

/-- A statement that begins with the keyword is an attribute, and flat tokens behind the keyword
are all shown. -/
theorem step_attribute
    (source : String) (start : Nat) {front : List Token} (hfront : ∀ t ∈ front, isFlat t = true)
    (rest : List Token) :
    ∃ e used shown,
      step source ⟨.bareWord, start, attributeKeyword⟩ (front ++ rest) = (some e, used) ∧
      e.kind = .attribute ∧
      e.text = joined (⟨.bareWord, start, attributeKeyword⟩ :: (front ++ rest.take shown)) := by
  let keyword : Token := ⟨.bareWord, start, attributeKeyword⟩
  have hstatement : statementKind keyword (front ++ rest) = .attribute := by
    simp [statementKind, keyword]
  have hflat : ∀ t ∈ keyword :: front, isFlat t = true :=
    List.forall_mem_cons.mpr ⟨rfl, hfront⟩
  have hextent := statementExtent_flat (endsWithBlock keyword) hflat rest
  rw [List.cons_append] at hextent
  have htake : ∀ n, (keyword :: (front ++ rest)).take (n + (front.length + 1)) =
      keyword :: (front ++ rest.take n) := by
    intro n
    rw [← Nat.add_assoc, List.take_succ_cons, Nat.add_comm n, List.take_length_add_append]
  refine ⟨_, _, (statementExtent (endsWithBlock keyword) 0 rest).shown, rfl, hstatement, ?_⟩
  change (statementElement source keyword (front ++ rest)).1.text = _
  simp only [statementElement, element, hextent, hstatement, Extent.behind, List.length_cons, htake]
  rfl

/-- The tokens behind the keyword through the parenthesis, for a name of the given kind. -/
def tokens (h : AttributeHeader) (start : Nat) (kind : Kind) : List Token :=
  let name := start + byteSize attributeKeyword.toList + byteSize h.behindKeyword
  let arrow := name + byteSize h.nameText + byteSize h.behindName
  [⟨kind, name, String.ofList h.nameText⟩, ⟨.punctuation, arrow, "="⟩,
    ⟨.punctuation, arrow + 1, ">"⟩, ⟨.punctuation, arrow + 2 + byteSize h.behindArrow, "("⟩]

theorem isFlat_of_mem_tokens
    {start : Nat} {kind : Kind} (hkind : kind.isWord = true ∨ kind = .string) :
    ∀ t ∈ h.tokens start kind, isFlat t = true := by
  have hname : ∀ start text, isFlat ⟨kind, start, text⟩ = true := by
    intro start text
    rcases hkind with hkind | rfl
    · cases kind <;> first | rfl | cases hkind
    · rfl
  simp only [tokens, List.forall_mem_cons, List.not_mem_nil, IsEmpty.forall_iff, implies_true,
    and_true]
  exact ⟨hname _ _, rfl, rfl, rfl⟩

theorem joined_tokens
    {start : Nat} {kind : Kind} (hkind : kind.isWord = true ∨ kind = .string) (ts : List Token) :
    ∃ list, list.toList.head? = some '(' ∧
      joined (⟨.bareWord, start, attributeKeyword⟩ :: (h.tokens start kind ++ ts)) =
        h.statement list := by
  have hcomment : kind.isComment = false := by
    rcases hkind with hkind | rfl
    · exact Kind.isComment_of_isWord hkind
    · rfl
  have hkeyword : ∀ ts, joined (⟨.bareWord, start, attributeKeyword⟩ :: ts) =
      attributeKeyword ++ joinedFrom (some (start + byteSize attributeKeyword.toList)) ts := by
    intro ts
    rw [byteSize_toList]
    rfl
  rw [hkeyword, tokens]
  simp only [List.cons_append, List.nil_append]
  rw [joinedFrom_behind rfl hcomment,
    @joinedFrom_behind _ h.behindName _ (by rw [stop, utf8ByteSize_ofList]) rfl,
    @joinedFrom_behind _ [] _ (by rfl) (by rfl),
    @joinedFrom_behind _ h.behindArrow _ (by rfl) (by rfl)]
  generalize joinedFrom _ ts = tail
  refine ⟨"(" ++ tail, by simp, ?_⟩
  rw [← String.toList_inj, statement]
  simp [spaceFor]

/-- The element of a declaration at the head of the tokens: its text is the keyword alone if the
tokens end with the name, and otherwise the statement with the text of the list. -/
theorem exists_element
    (source : String) (cursor : Cursor) (after : List Char) {keyword : Token} {rest : List Token}
    (hlex : lexAt cursor (h.text ++ after) = keyword :: rest) :
    ∃ e used, step source keyword rest = (some e, used) ∧ e.kind = .attribute ∧
      (h.EndsTokens ∧ e.text = attributeKeyword ∨
        ¬ h.EndsTokens ∧ ∃ list, list.toList.head? = some '(' ∧ e.text = h.statement list) := by
  obtain ⟨behind, hbehind, hkeyword⟩ := h.exists_lexAt_keyword cursor after
  obtain ⟨rfl, hrest⟩ := List.cons.inj (hlex.symm.trans hkeyword)
  rcases h.exists_lexAt_name behind after with
    ⟨hends, hnil⟩ | ⟨hends, kind, named, hkind, hnamed, hname⟩
  · obtain ⟨e, used, shown, hstep, hattribute, htext⟩ :=
      @step_attribute source cursor.offset [] (by simp) []
    refine ⟨e, used, ?_, hattribute, .inl ⟨hends, ?_⟩⟩
    · rw [hrest, hnil]
      exact hstep
    · rw [htext, List.take_nil]
      rfl
  · obtain ⟨next, harrow⟩ := h.exists_lexAt_arrow named after
    have htokens : rest = h.tokens cursor.offset kind ++ lexAt next after := by
      rw [hrest, hname, harrow, hnamed, hbehind]
      rfl
    obtain ⟨e, used, shown, hstep, hattribute, htext⟩ :=
      step_attribute source cursor.offset (h.isFlat_of_mem_tokens hkind) (lexAt next after)
    obtain ⟨list, hlist, hstatement⟩ := h.joined_tokens hkind ((lexAt next after).take shown)
    rw [← htokens] at hstep
    exact ⟨e, used, hstep, hattribute, .inr ⟨hends, list, hlist, htext.trans hstatement⟩⟩

end

end AttributeHeader

end MarkerDoc
