import MarkerDoc.Page
import MarkerDoc.Proofs.AttributeHeader
import MarkerDoc.Proofs.Composition
import MarkerDoc.Proofs.Extract
import MarkerDoc.Proofs.FenceGrammar
import MarkerDoc.Proofs.NamedRoutine

/-!
# The heading of an attribute

The heading of an attribute is cut out of its statement: it is the second word, without quotes and
brackets around it.  A statement shows where the source has gaps, so the second word is the name
only if there is a gap on both sides of it.  Without a gap behind the name the arrow is part of the
heading, and without one in front the heading begins behind the name.
-/

namespace MarkerDoc

namespace Text

/-! ## Words of a text -/

theorem wordsFrom_space {word : List Char} (hword : word ≠ []) (cs : List Char) :
    wordsFrom word (' ' :: cs) = word.reverse :: wordsFrom [] cs := by
  simp [wordsFrom, hword, show isBlank ' ' = true by decide]

theorem wordsFrom_run_space
    {run : List Char} (hne : run ≠ []) (hrun : ∀ c ∈ run, isBlank c = false) (cs : List Char) :
    wordsFrom [] (run ++ ' ' :: cs) = run :: wordsFrom [] cs := by
  rw [wordsFrom_append hrun, List.append_nil, wordsFrom_space (by simpa using hne),
    List.reverse_reverse]

theorem head?_wordsFrom_run
    {run : List Char} (hne : run ≠ []) (hrun : ∀ c ∈ run, isBlank c = false) (cs : List Char) :
    (wordsFrom [] (run ++ cs)).head? = some (run ++ cs.takeWhile (!isBlank ·)) := by
  rw [wordsFrom_append hrun, List.append_nil, wordsFrom_head? _ (by simpa using hne),
    List.reverse_reverse]

/-- The words behind the first do not depend on how it begins. -/
theorem tail_wordsFrom_eq
    {word word' : List Char} (hword : word ≠ []) (hword' : word' ≠ []) (cs : List Char) :
    (wordsFrom word cs).tail = (wordsFrom word' cs).tail := by
  induction cs generalizing word word' with
  | nil =>
      simp [wordsFrom, hword, hword']
  | cons c cs ih =>
      by_cases hc : isBlank c = true
      · simp [wordsFrom, hc, hword, hword']
      · simp only [wordsFrom, hc]
        exact ih (List.cons_ne_nil c word) (List.cons_ne_nil c word')

theorem tail_wordsFrom_run
    {run cs : List Char} (hrun : ∀ c ∈ run, isBlank c = false) {c : Char}
    (hc : isBlank c = false) :
    (wordsFrom [] (run ++ c :: cs)).tail = (wordsFrom [] (c :: cs)).tail := by
  have hhead : wordsFrom [] (c :: cs) = wordsFrom [c] cs := by
    simp [wordsFrom, hc]
  have hbehind : wordsFrom run.reverse (c :: cs) = wordsFrom (c :: run.reverse) cs := by
    simp [wordsFrom, hc]
  rw [wordsFrom_append hrun, List.append_nil, hbehind, hhead]
  exact tail_wordsFrom_eq (List.cons_ne_nil _ _) (List.cons_ne_nil _ _) cs

end Text

namespace Page

open Text DocBlock

theorem not_trimmed_of_mem
    {p : Char → Bool} {c : Char} {word core : List Char} (hc : c ∈ word) (hp : p c = false)
    (hcore : c ∉ core) : ¬ Trimmed p word core := by
  rintro ⟨⟨front, back, rfl, hfront, hback⟩, -, -⟩
  simp only [List.mem_append, hcore, false_or] at hc
  rcases hc with hc | hc
  · exact Bool.false_ne_true (hp.symm.trans (hfront c hc))
  · exact Bool.false_ne_true (hp.symm.trans (hback c hc))

/-- A title other than the whole statement is what is left of the second word. -/
theorem attributeTitle_eq_iff {statement name : String} (hne : statement ≠ name) :
    attributeTitle statement = name ↔
      ∃ word, (wordsFrom [] statement.toList)[1]? = some word ∧
        Trimmed isAttributeWrapping word name.toList := by
  unfold attributeTitle words
  rw [List.getElem?_map]
  cases hword : (wordsFrom [] statement.toList)[1]? with
  | none => simpa using hne
  | some word =>
      simp only [Option.map_some, Option.some.injEq, exists_eq_left']
      rw [← dropEndWhile_dropWhile_eq_iff, ← String.toList_inj, String.toList_ofList,
        String.toList_ofList]

theorem isAttributeWrapping_of_isName
    {name : String} (h : Lexeme.IsName name) {c : Char} (hc : c ∈ name.toList) :
    isAttributeWrapping c = false := by
  have hnone : "'\"[]+,(".toList.all (fun c => !Lexeme.isWordChar c && c != ':') = true := by
    decide
  by_contra hwrapping
  rw [Bool.not_eq_false, isAttributeWrapping, List.contains_iff_mem] at hwrapping
  have hchar := List.all_eq_true.mp hnone c hwrapping
  rcases h.mem hc with hword | rfl
  · simp [hword] at hchar
  · simp at hchar

theorem eq_not_mem_of_isName {name : String} (h : Lexeme.IsName name) : '=' ∉ name.toList := by
  intro hmem
  rcases h.mem hmem with hword | hcolon
  · exact absurd hword (by decide)
  · exact absurd hcolon (by decide)

end Page

namespace AttributeHeader

open Text Page DocBlock

/-- The name stands apart from the keyword and from the arrow. -/
def StandsApart (h : AttributeHeader) : Prop :=
  h.behindKeyword ≠ [] ∧ h.behindName ≠ []

/-- Keyword, name and arrow are one word, and the next word, which comes from the list, happens to
be the name. -/
def RepeatedInList (h : AttributeHeader) (list : String) : Prop :=
  h.behindKeyword = [] ∧ h.behindName = [] ∧
    ∃ word, (words list)[if h.behindArrow = [] then 1 else 0]? = some word ∧
      Trimmed isAttributeWrapping word.toList h.name.toList

variable (h : AttributeHeader)

theorem nameText_ne_nil : h.nameText ≠ [] := by
  obtain ⟨c, cs, hname, -⟩ := h.isName
  simp [nameText, hname]

theorem mem_nameText {c : Char} (hc : c ∈ h.nameText) :
    c ∈ h.name.toList ∨ c = '"' ∨ c = Char.ofNat 0x27 := by
  simp only [nameText, List.mem_append, Option.mem_toList] at hc
  rcases hc with hc | hc | hc
  · exact .inr (h.isQuote c hc)
  · exact .inl hc
  · exact .inr (h.isQuote c hc)

theorem isBlank_nameText {c : Char} (hc : c ∈ h.nameText) : isBlank c = false := by
  rcases h.mem_nameText hc with hc | rfl | rfl
  · exact h.isName.isBlank_eq_false hc
  · decide
  · decide

theorem trimmed_nameText : Trimmed isAttributeWrapping h.nameText h.name.toList := by
  have hquote : ∀ q ∈ h.quote.toList, isAttributeWrapping q = true := by
    intro q hq
    rcases h.isQuote q (Option.mem_toList.mp hq) with rfl | rfl <;> decide
  refine ⟨⟨_, _, rfl, hquote, hquote⟩, ?_, ?_⟩
  · intro c hc
    exact isAttributeWrapping_of_isName h.isName (List.mem_of_head? hc)
  · intro c hc
    exact isAttributeWrapping_of_isName h.isName (List.mem_of_getLast? hc)

theorem not_trimmed_of_arrow {word : List Char} (hword : '=' ∈ word) :
    ¬ Trimmed isAttributeWrapping word h.name.toList :=
  not_trimmed_of_mem hword (by decide) (eq_not_mem_of_isName h.isName)

section

variable {h} {list : String}

theorem head?_words_of_nameGap (hgap : h.behindName ≠ []) (rest : List Char) :
    (wordsFrom [] (h.nameText ++ (spaceFor h.behindName ++ rest))).head? = some h.nameText := by
  rw [spaceFor, if_neg hgap, List.singleton_append,
    wordsFrom_run_space h.nameText_ne_nil fun _ => h.isBlank_nameText]
  rfl

theorem eq_mem_head?_words
    {run : List Char} (hrun : ∀ c ∈ run, isBlank c = false) {rest word : List Char}
    (hword : (wordsFrom [] (run ++ '=' :: rest)).head? = some word) : '=' ∈ word := by
  have hall : ∀ c ∈ run ++ ['='], isBlank c = false := by
    intro c hc
    rcases List.mem_append.mp hc with hc | hc
    · exact hrun c hc
    · rw [List.mem_singleton.mp hc]
      decide
  rw [← List.singleton_append, ← List.append_assoc, head?_wordsFrom_run (by simp) hall,
    Option.some.injEq] at hword
  rw [← hword]
  simp

theorem second_of_keywordGap (hgap : h.behindKeyword ≠ []) :
    (wordsFrom [] (h.statement list).toList)[1]? =
      (wordsFrom [] (h.nameText ++ (spaceFor h.behindName ++
        '=' :: '>' :: (spaceFor h.behindArrow ++ list.toList)))).head? := by
  rw [statement, String.toList_ofList, spaceFor, if_neg hgap, List.singleton_append,
    wordsFrom_run_space (by decide) fun _ => isName_attributeKeyword.isBlank_eq_false,
    List.getElem?_cons_succ, List.head?_eq_getElem?]

theorem isBlank_joined
    {c : Char} (hc : c ∈ Scan.attributeKeyword.toList ++ h.nameText) : isBlank c = false := by
  rcases List.mem_append.mp hc with hc | hc
  · exact isName_attributeKeyword.isBlank_eq_false hc
  · exact h.isBlank_nameText hc

theorem second_of_nameGap (hkeyword : h.behindKeyword = []) (hgap : h.behindName ≠ []) :
    (wordsFrom [] (h.statement list).toList)[1]? =
      (wordsFrom [] ('=' :: '>' :: (spaceFor h.behindArrow ++ list.toList))).head? := by
  rw [statement, String.toList_ofList, spaceFor, if_pos hkeyword, List.nil_append,
    ← List.append_assoc, spaceFor, if_neg hgap, List.singleton_append,
    wordsFrom_run_space (by simp [nameText_ne_nil]) fun _ => isBlank_joined,
    List.getElem?_cons_succ, List.head?_eq_getElem?]

theorem second_of_joined
    (hkeyword : h.behindKeyword = []) (hname : h.behindName = [])
    (hlist : list.toList.head? = some '(') :
    (wordsFrom [] (h.statement list).toList)[1]? =
      (wordsFrom [] list.toList)[if h.behindArrow = [] then 1 else 0]? := by
  have hrun : ∀ c ∈ (Scan.attributeKeyword.toList ++ h.nameText) ++ ['=', '>'],
      isBlank c = false := by
    intro c hc
    rcases List.mem_append.mp hc with hc | hc
    · exact isBlank_joined hc
    · simp only [List.mem_cons, List.not_mem_nil, or_false] at hc
      rcases hc with rfl | rfl <;> decide
  have hsplit : (h.statement list).toList =
      ((Scan.attributeKeyword.toList ++ h.nameText) ++ ['=', '>']) ++
        (spaceFor h.behindArrow ++ list.toList) := by
    rw [statement, String.toList_ofList, spaceFor, if_pos hkeyword, spaceFor, if_pos hname]
    simp
  rw [hsplit]
  by_cases harrow : h.behindArrow = []
  · obtain ⟨rest, hrest⟩ := List.head?_eq_some_iff.mp hlist
    rw [spaceFor, if_pos harrow, if_pos harrow, List.nil_append, hrest, ← List.getElem?_tail,
      ← List.getElem?_tail, tail_wordsFrom_run hrun (by decide)]
  · rw [spaceFor, if_neg harrow, if_neg harrow, List.singleton_append,
      wordsFrom_run_space (by simp) hrun, List.getElem?_cons_succ]

/-- The title is the name exactly when the name stands apart, or when the list repeats it. -/
theorem attributeTitle_statement_iff (hlist : list.toList.head? = some '(') :
    attributeTitle (h.statement list) = h.name ↔ h.StandsApart ∨ h.RepeatedInList list := by
  have hne : h.statement list ≠ h.name := by
    intro heq
    apply eq_not_mem_of_isName h.isName
    rw [← heq, statement]
    simp
  rw [attributeTitle_eq_iff hne]
  by_cases hkeyword : h.behindKeyword = []
  · by_cases hname : h.behindName = []
    · -- Keyword, name and arrow are one word, so the second word comes from the list.
      rw [second_of_joined hkeyword hname hlist]
      have hwords : ∀ n, (words list)[n]? =
          ((wordsFrom [] list.toList)[n]?).map String.ofList := fun n => List.getElem?_map
      simp only [StandsApart, RepeatedInList, hkeyword, hname, hwords, ne_eq, not_true_eq_false,
        false_and, false_or, true_and, Option.map_eq_some_iff]
      constructor
      · rintro ⟨word, hword, htrimmed⟩
        exact ⟨_, ⟨word, hword, rfl⟩, by rwa [String.toList_ofList]⟩
      · rintro ⟨_, ⟨word, hword, rfl⟩, htrimmed⟩
        exact ⟨word, hword, by rwa [String.toList_ofList] at htrimmed⟩
    · -- The second word begins with the arrow.
      rw [second_of_nameGap hkeyword hname]
      refine iff_of_false ?_ (by simp [StandsApart, RepeatedInList, hkeyword, hname])
      rintro ⟨word, hword, htrimmed⟩
      exact h.not_trimmed_of_arrow (@eq_mem_head?_words [] (by simp) _ _ hword) htrimmed
  · rw [second_of_keywordGap hkeyword]
    by_cases hname : h.behindName = []
    · -- The second word is the name with the arrow behind it.
      refine iff_of_false ?_ (by simp [StandsApart, RepeatedInList, hkeyword, hname])
      rintro ⟨word, hword, htrimmed⟩
      rw [spaceFor, if_pos hname, List.nil_append] at hword
      exact h.not_trimmed_of_arrow (eq_mem_head?_words (fun _ => h.isBlank_nameText) hword) htrimmed
    · refine iff_of_true ?_ (.inl ⟨hkeyword, hname⟩)
      exact ⟨_, head?_words_of_nameGap hname _, h.trimmed_nameText⟩

end

end AttributeHeader

namespace Extract

open DocBlock

/-! ## The item of a declaration -/

theorem AllItems.mem_of_documentedAt
    {extensions : List String} {es : List Element} {found : List Item} {i : Nat} {item : Item}
    (h : AllItems extensions es 0 found) (hat : DocumentedAt extensions es i item) :
    item ∈ found := by
  obtain ⟨order, -, -, hall, hcomplete⟩ := h.positions
  have hi := hcomplete i item (Nat.zero_le i) hat
  clear h hcomplete
  induction hall with
  | nil => cases hi
  | @cons j other order found hhead _ ih =>
      rcases List.mem_cons.mp hi with rfl | hi
      · rw [hat.unique hhead]
        exact List.mem_cons_self
      · exact List.mem_cons_of_mem _ (ih hi)

/-- An attribute of an extended module gives an item, unless its block says to ignore it. -/
theorem exists_item_of_attribute
    {settings : ExtractSettings} {path : Path} {source : String} {m : Module}
    (hextract : Module.extract settings path source = .ok (.found m))
    (hextended : m.flavor = .extended) {i : Nat} {e : Element}
    (hat : (Element.scan source)[i]? = some e) (hkind : e.kind = .attribute) :
    OpensWithIgnore (itemBlockAt (Element.scan source) i) .itemDoc ∨
      ∃ item ∈ m.items, DocumentedAt settings.extensions (Element.scan source) i item ∧
        item.kind = .attribute ∧ item.statement = e.text := by
  have hextracts := extracts_ofElements settings.extensions path (Element.scan source)
  change Extracts _ _ _ (Module.extract settings path source) at hextracts
  rw [hextract] at hextracts
  cases hextracts with
  | found hfirst hblock hitems hflavor =>
      have hselected := Selected.attribute hkind (hflavor.mp hextended)
      cases hclassify : classify (itemBlockAt (Element.scan source) i) .itemDoc with
      | error malformed =>
          exact absurd ⟨e, _, hat, hselected, hclassify⟩ (hitems.readable i malformed i.zero_le)
      | ok block =>
          cases block with
          | ignored => exact .inl ((classify_eq_ignored_iff _ _).mp hclassify)
          | documented description test =>
              have hdocumented : DocumentedAt settings.extensions (Element.scan source) i
                  ⟨.attribute, e.text, description, e.line⟩ :=
                ⟨e, _, description, test, hat, hselected, hclassify, rfl⟩
              exact .inr ⟨_, hitems.mem_of_documentedAt hdocumented, hdocumented, rfl, rfl⟩

/-- The heading of an attribute that is declared with a list.  Its statement is the declaration with
every gap written as one space, and the heading is the name exactly when there is a gap on both
sides of the name, or when there is none on either side and the next word of the statement, which
comes from the list, happens to be the name.  A bare name that is an end marker at the start of a
line ends the source. -/
theorem attribute_title_eq_name_iff
    {settings : ExtractSettings} {path : Path} {source : String} {m : Module}
    (h : AttributeHeader) {before after : List Char} {front rest : List Token} {keyword : Token}
    {blocks : Nat} {given : List Element}
    (hextract : Module.extract settings path source = .ok (.found m))
    (hextended : m.flavor = .extended)
    (hsource : source.toList = before ++ (h.text ++ after))
    (hlex : Token.lex source = front ++ keyword :: rest)
    (hplace : keyword.start = byteSize before)
    (hvisits : Scan.Visits source (Token.lex source) front.length blocks given) :
    OpensWithIgnore (itemBlockAt (Element.scan source) given.length) .itemDoc ∨
      ∃ item ∈ m.items,
        DocumentedAt settings.extensions (Element.scan source) given.length item ∧
        item.kind = .attribute ∧
        (h.EndsTokens ∧ item.statement = Scan.attributeKeyword ∧ Page.title item ≠ h.name ∨
          ¬ h.EndsTokens ∧ ∃ list, list.toList.head? = some '(' ∧
            item.statement = h.statement list ∧
            (Page.title item = h.name ↔ h.StandsApart ∨ h.RepeatedInList list)) := by
  -- The keyword stands at the head of the declaration.
  have hlexAt : Token.lexAt .start source.toList = front ++ keyword :: rest := hlex
  obtain ⟨passed, here, next, behind, hstep, htext, hstart, -, hbehind⟩ :=
    Token.exists_step_of_lexAt hlexAt
  obtain ⟨-, hwritten⟩ := Token.append_inj_of_byteSize (htext.symm.trans hsource)
    (by rw [← hplace, hstart, Token.Cursor.start, Nat.zero_add])
  have hhere : Token.lexAt here (h.text ++ after) = keyword :: rest := by
    rw [← hwritten, Token.lexAt_of_step hstep, hbehind]
    rfl
  obtain ⟨e, used, helement, hkind, hform⟩ := h.exists_element source here after hhere
  -- So the loop gives its element next.
  have hscan : Element.scan source = given ++ Scan.elements source (keyword :: rest) := by
    have helements := hvisits.elements_eq
    rwa [hlex, List.drop_left, ← hlex] at helements
  have hat : (Element.scan source)[given.length]? = some e := by
    rw [hscan, Scan.elements_cons, helement]
    simp
  rcases exists_item_of_attribute hextract hextended hat hkind with
    hignore | ⟨item, hitem, hdocumented, hattribute, hstatement⟩
  · exact .inl hignore
  · refine .inr ⟨item, hitem, hdocumented, hattribute, ?_⟩
    have htitle : Page.title item = Page.attributeTitle e.text := by
      rw [Page.title, hattribute, hstatement]
    rw [htitle, hstatement]
    rcases hform with ⟨hends, hkeyword⟩ | ⟨hends, list, hlist, hdeclared⟩
    · refine .inl ⟨hends, hkeyword, ?_⟩
      rw [hkeyword]
      rcases hends.2.1 with hname | hname
      · rw [hname]
        decide
      · rw [hname]
        decide
    · refine .inr ⟨hends, list, hlist, hdeclared, ?_⟩
      rw [hdeclared]
      exact AttributeHeader.attributeTitle_statement_iff hlist

/-- A name that is also a quote-like operator, with a tab and a line break around the arrow. -/
theorem attribute_title_of_operator :
    let source := "has s\t=>\n(is => 'ro');\nuse Moo;\npackage P;\n"
    ∃ (h : AttributeHeader) (m : Module), h.name = "s" ∧ h.text <+: source.toList ∧
      Module.extract {} ⟨"lib/P.pm"⟩ source = .ok (.found m) ∧
      ∃ item ∈ m.items, item.kind = .attribute ∧ Page.title item = "s" := by
  intro source
  let h : AttributeHeader :=
    { name := "s"
      quote := none
      behindKeyword := [' ']
      behindName := ['\t']
      behindArrow := ['\n']
      isName := ⟨'s', [], rfl, by decide, .nil⟩
      isQuote := by simp
      keywordGap := by simp [Token.gapCharacters]
      nameGap := by simp [Token.gapCharacters]
      arrowGap := by simp [Token.gapCharacters]
      apart := by simp }
  let item : Item := ⟨.attribute, "has s => (is => 'ro')", "", 1⟩
  let m : Module := ⟨⟨"lib/P.pm"⟩, ⟨"package P", "", 4⟩, [item], .extended⟩
  have hextract : Module.extract {} ⟨"lib/P.pm"⟩ source = .ok (.found m) := by
    decide +kernel
  have hsource : source.toList =
      [] ++ (h.text ++ "is => 'ro');\nuse Moo;\npackage P;\n".toList) := by
    decide +kernel
  have hlex : Token.lex source = [] ++ ⟨.bareWord, 0, "has"⟩ :: (Token.lex source).tail := by
    decide +kernel
  refine ⟨h, m, rfl, ⟨_, hsource.symm⟩, hextract, ?_⟩
  rcases attribute_title_eq_name_iff h hextract rfl hsource hlex rfl .start with
    hignore | ⟨item, hitem, -, hkind, ⟨⟨-, hname, -⟩, -⟩ | ⟨-, list, -, -, htitle⟩⟩
  · rw [← classify_eq_ignored_iff] at hignore
    exact absurd hignore (by decide +kernel)
  · exact absurd hname (by decide)
  · exact ⟨item, hitem, hkind, htitle.mpr (.inl ⟨by decide, by decide⟩)⟩

/-- Without a gap behind the name, the heading takes the arrow and the list along. -/
theorem attribute_title_without_gap :
    let item : Item := ⟨.attribute, "has name=>(is=>'ro')", "", 3⟩
    Module.extract {} ⟨"lib/P.pm"⟩ "package P;\nuse Moo;\nhas name=>(is=>'ro');\n" =
        .ok (.found ⟨⟨"lib/P.pm"⟩, ⟨"package P", "", 1⟩, [item], .extended⟩) ∧
      Page.title item = "name=>(is=>'ro')" := by
  decide +kernel

end Extract

end MarkerDoc
