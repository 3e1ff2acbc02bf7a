import MarkerDoc.Page
import MarkerDoc.Proofs.Composition
import MarkerDoc.Proofs.Coverage
import MarkerDoc.Proofs.PackageStatement
import MarkerDoc.Proofs.RoundTrip
import MarkerDoc.Proofs.ScriptLayout

/-!
# Declared names

The scanner records the name of a declaration as the token behind the keyword.  The records of the
documentation hold the text of the declaration, and the name is read off that text again: the second
word for a package, and for a routine the longest run of name characters.  The two readings differ
exactly where the text goes on right behind the name, with no gap in the source, by a character that
the second reading takes along.
-/

namespace MarkerDoc

namespace Scan

/-! ## What stands behind a name -/

/-- A token with such a character at its head is joined to the name. -/
def RunsOn (p : Char → Bool) (name : Token) (shown : List Token) : Prop :=
  ∃ t c, shown.head? = some t ∧ t.kind.isComment = false ∧ t.start = name.stop ∧
    t.text.toList.head? = some c ∧ p c = true

/-- Tokens that stand apart from what is in front of them are shown behind a space. -/
theorem head?_joinedFrom_of_lt
    {stop : Nat} {ts : List Token} (h : ∀ t ∈ ts, stop < t.start) {c : Char}
    (hc : (joinedFrom (some stop) ts).toList.head? = some c) : c = ' ' := by
  induction ts with
  | nil =>
      simp [joinedFrom] at hc
  | cons t ts ih =>
      obtain ⟨ht, hts⟩ := List.forall_mem_cons.mp h
      simp only [joinedFrom, ht, if_true] at hc
      split_ifs at hc
      · exact ih hts hc
      · simp only [String.toList_append, List.append_assoc] at hc
        exact (Option.some.inj hc).symm

/-- The text behind a name goes on with such a character exactly when a token runs on. -/
theorem head?_joinedFrom_iff
    {p : Char → Bool} (hspace : p ' ' = false) {name : Token} {shown : List Token}
    (horder : (name :: shown).Pairwise fun t u => t.stop ≤ u.start)
    (hsize : ∀ t ∈ shown, t.start < t.stop) :
    (∀ c, (joinedFrom (some name.stop) shown).toList.head? = some c → p c = false) ↔
      ¬ RunsOn p name shown := by
  cases shown with
  | nil =>
      simp [joinedFrom, RunsOn]
  | cons t ts =>
      obtain ⟨hname, htail⟩ := List.pairwise_cons.mp horder
      obtain ⟨ht, -⟩ := List.pairwise_cons.mp htail
      have hle := hname t List.mem_cons_self
      have hlt := hsize t List.mem_cons_self
      have hbehind : ∀ u ∈ ts, name.stop < u.start := by
        intro u hu
        have hstop := ht u hu
        omega
      cases hcomment : t.kind.isComment with
      | true =>
          have hskip : joinedFrom (some name.stop) (t :: ts) = joinedFrom (some name.stop) ts := by
            simp [joinedFrom, hcomment]
          rw [hskip]
          constructor
          · rintro - ⟨u, c, hu, hplain, -⟩
            obtain rfl : t = u := Option.some.inj hu
            exact Bool.false_ne_true (hplain.symm.trans hcomment)
          · intro _ c hc
            rw [head?_joinedFrom_of_lt hbehind hc]
            exact hspace
      | false =>
          rcases hle.lt_or_eq with hgap | hjoined
          · constructor
            · rintro - ⟨u, c, hu, -, hstart, -⟩
              obtain rfl : t = u := Option.some.inj hu
              omega
            · intro _ c hc
              rw [head?_joinedFrom_of_lt
                (List.forall_mem_cons.mpr ⟨hgap, hbehind⟩) hc]
              exact hspace
          · have htext : (joinedFrom (some name.stop) (t :: ts)).toList =
                t.text.toList ++ (joinedFrom (some t.stop) ts).toList := by
              simp [joinedFrom, hcomment, hjoined]
            have hne : t.text.toList ≠ [] := by
              intro hempty
              have hzero : t.text.utf8ByteSize = 0 := by
                rw [← Token.byteSize_toList, hempty]
                rfl
              rw [Token.stop, hzero] at hlt
              omega
            obtain ⟨d, tail, hd⟩ := List.exists_cons_of_ne_nil hne
            rw [htext, hd]
            constructor
            · rintro hall ⟨u, c, hu, -, -, hc, hp⟩
              obtain rfl : t = u := Option.some.inj hu
              rw [hd] at hc
              exact Bool.false_ne_true ((hall c hc).symm.trans hp)
            · intro hnot c hc
              rw [← Bool.not_eq_true]
              intro hp
              exact hnot ⟨t, c, rfl, hcomment, hjoined.symm, by rw [hd]; exact hc, hp⟩

/-! ## Declarations -/

/-- The element shows a declaration of the source: a keyword, the name behind it, and some of the
tokens behind the name. -/
structure Declares (source : String) (kind : Token.Kind) (e : Element) (name : Token)
    (shown : List Token) : Prop where
  word : name.kind = .bareWord
  tokens : ∃ front keyword rest, Token.lex source = front ++ keyword :: name :: (shown ++ rest) ∧
    keyword.kind = kind ∧ e.text = joined (keyword :: name :: shown)

theorem exists_declares_of_package
    {source : String} {e : Element} (h : e ∈ Element.scan source) (he : e.isPackage = true) :
    ∃ name shown, e.kind = .package name.text ∧ Declares source .package e name shown := by
  obtain ⟨front, t, rest, hlex, hstep⟩ := exists_step_of_mem_elements h
  obtain ⟨hkind, u, us, n, rfl, hu, -⟩ := step_of_isPackage hstep he
  simp only [step, hkind, packageElement_eq, Option.some.injEq] at hstep
  subst hstep
  have hlength : packageLength (u :: us) = packageLength us + 1 := by
    simp [packageLength, hu, Token.Kind.isComment]
  refine ⟨u, us.take (packageLength us), by simp [element, packageKind, hu], hu, front, t,
    us.drop (packageLength us), ?_, hkind, ?_⟩
  · rw [hlex, List.take_append_drop]
  · simp only [element, hlength, List.take_succ_cons]

theorem statementKind_ne_routine (first : Token) (rest : List Token) (n : String) :
    statementKind first rest ≠ .routine n := by
  unfold statementKind
  split
  · split <;> [split; skip] <;> simp
  · split_ifs <;> simp
  · simp

/-- Only a keyword with a name behind it gives a routine. -/
theorem step_of_routine
    {source : String} {t : Token} {rest : List Token} {e : Element} {n : String}
    (h : (step source t rest).1 = some e) (he : e.kind = .routine n) :
    t.kind = .sub ∧ ∃ name us, rest = name :: us ∧ name.kind = .bareWord ∧
      e = (routineElement source t name us).1 := by
  have hstatement : ∀ rest, some (statementElement source t rest).1 ≠ some e := by
    rintro rest ⟨⟩
    exact statementKind_ne_routine t rest n he
  have hpackage : packageKind rest ≠ .routine n := by
    unfold packageKind
    split
    · split <;> simp
    · simp
  cases hkind : t.kind with
  | sub =>
      refine ⟨rfl, ?_⟩
      simp only [step, hkind] at h
      cases rest with
      | nil =>
          exact absurd h (hstatement _)
      | cons name us =>
          simp only at h
          split_ifs at h with hword
          · exact ⟨name, us, rfl, hword, (Option.some.inj h).symm⟩
          · exact absurd h (hstatement _)
  | package =>
      simp only [step, hkind, packageElement_eq, Option.some.injEq] at h
      subst h
      exact absurd he hpackage
  | packageDoc | itemDoc | comment | rightBrace =>
      simp only [step, hkind, commentElement, Option.some.injEq] at h
      subst h
      simp [element] at he
  | semicolon =>
      simp [step, hkind] at h
  | use | bareWord | variableName | string | number | leftBrace | punctuation =>
      simp only [step, hkind] at h
      exact absurd h (hstatement _)

theorem exists_declares_of_routine
    {source : String} {e : Element} {n : String} (h : e ∈ Element.scan source)
    (he : e.kind = .routine n) :
    ∃ name shown, n = name.text ∧ Declares source .sub e name shown := by
  obtain ⟨front, t, rest, hlex, hstep⟩ := exists_step_of_mem_elements h
  obtain ⟨hkind, u, us, rfl, hu, rfl⟩ := step_of_routine hstep he
  rw [routineElement_eq] at he ⊢
  refine ⟨u, us.take (signatureLength 0 us), (Element.Kind.routine.inj he).symm, hu, front, t,
    us.drop (signatureLength 0 us), ?_, hkind, rfl⟩
  rw [hlex, List.take_append_drop]

section

variable {source : String} {kind : Token.Kind} {e : Element} {name : Token} {shown : List Token}

/-- The text of a declaration: the keyword, a space, the name, and what the text shows behind. -/
theorem Declares.text_eq
    (h : Declares source kind e name shown) (hkind : kind = .package ∨ kind = .sub) :
    ∃ keyword, keyword ∈ Token.lex source ∧ keyword.kind = kind ∧
      e.text = keyword.text ++ " " ++
        (name.text ++ joinedFrom (some name.stop) shown) := by
  obtain ⟨front, keyword, rest, hlex, hkeyword, htext⟩ := h.tokens
  have hword : keyword.kind.isWord = true ∧ keyword.kind.isComment = false := by
    rw [hkeyword]
    rcases hkind with rfl | rfl <;> exact ⟨rfl, rfl⟩
  have hgap : keyword.stop < name.start := by
    have hchain := (Token.wordsApart_lex source).gap
    rw [hlex, List.isChain_append] at hchain
    exact (List.isChain_cons_cons.mp hchain.2.1).1 hword.1 (by rw [h.word]; rfl)
  refine ⟨keyword, by simp [hlex], hkeyword, ?_⟩
  rw [htext, joined, joinedFrom_word hword.2, joinedFrom_word (by rw [h.word]; rfl)]
  simp only [hgap, if_true, String.empty_append, String.append_assoc]

theorem Declares.isWordText (h : Declares source kind e name shown) : Token.IsWordText name := by
  obtain ⟨front, keyword, rest, hlex, -⟩ := h.tokens
  have hmem : name ∈ Token.lex source := by
    simp [hlex]
  exact Token.isWordText_of_mem_lex hmem (by rw [h.word]; rfl)

theorem Declares.runsOn_iff
    (h : Declares source kind e name shown) {p : Char → Bool} (hspace : p ' ' = false) :
    (∀ c, (joinedFrom (some name.stop) shown).toList.head? = some c → p c = false) ↔
      ¬ RunsOn p name shown := by
  obtain ⟨front, keyword, rest, hlex, -⟩ := h.tokens
  apply head?_joinedFrom_iff hspace
  · have hpairwise := (Token.layout_lex source).pairwise
    rw [hlex, List.pairwise_append] at hpairwise
    have htail := (List.pairwise_cons.mp hpairwise.2.1).2
    rw [← List.cons_append, List.pairwise_append] at htail
    exact htail.1
  · intro t ht
    have hmem : t ∈ Token.lex source := by
      simp [hlex, ht]
    exact Token.start_lt_stop_of_mem_lex hmem

end

/-- The longest run of characters with the property is a given front exactly when it stops there. -/
theorem takeWhile_append_eq_iff
    {p : Char → Bool} {name rest : List Char} (hname : ∀ c ∈ name, p c = true) :
    (name ++ rest).takeWhile p = name ↔ ∀ c, rest.head? = some c → p c = false := by
  rw [List.takeWhile_append_of_pos hname, List.append_right_eq_self]
  cases rest with
  | nil => simp
  | cons c rest => cases hc : p c <;> simp [hc]

section

variable {source : String} {e : Element} {name : Token} {shown : List Token}

theorem Declares.package_name_eq_iff
    (h : Declares source .package e name shown) {p : PackageItem} (hp : p.statement = e.text) :
    p.name = name.text ↔ ¬ RunsOn (fun c => !Text.isBlank c) name shown := by
  obtain ⟨keyword, hmem, hkeyword, htext⟩ := h.text_eq (.inl rfl)
  have hpackage : keyword.text = "package" :=
    (Token.wordsApart_lex source).package keyword hmem hkeyword
  obtain ⟨c, tail, hname, hc⟩ := h.isWordText.head
  have hblank : ∀ d ∈ name.text.toList, (!Text.isBlank d) = true := by
    intro d hd
    simp [h.isWordText.isBlank_eq_false hd]
  have hhead : (name.text ++ joinedFrom (some name.stop) shown).toList.head? = some c := by
    rw [String.toList_append, hname]
    rfl
  have hsecond := @Text.words_second "package" (by decide)
    (fun _ hd => Lexeme.isName_package.isBlank_eq_false hd) _ c hhead
    (h.isWordText.isBlank_eq_false (by rw [hname]; exact List.mem_cons_self))
  rw [PackageItem.name, hp, htext, hpackage, hsecond, Option.getD_some, ← String.toList_inj,
    String.toList_ofList, String.toList_append, takeWhile_append_eq_iff hblank]
  exact h.runsOn_iff (by decide)

theorem Declares.routineName_eq_iff (h : Declares source .sub e name shown) :
    Item.routineName e.text = name.text ↔ ¬ RunsOn Item.isNameChar name shown := by
  obtain ⟨keyword, hmem, hkeyword, htext⟩ := h.text_eq (.inr rfl)
  have hsub : keyword.text = "sub" :=
    (Token.isWordText_of_mem_lex hmem (by rw [hkeyword]; rfl)).sub hkeyword
  obtain ⟨c, tail, hname, hc⟩ := h.isWordText.head
  have hchars : ∀ d ∈ name.text.toList, Item.isNameChar d = true := by
    intro d hd
    rcases h.isWordText.chars d hd with hword | rfl
    · exact Outline.isNameChar_of_isWordChar hword
    · decide
  have hhead : (name.text ++ joinedFrom (some name.stop) shown).toList.head? = some c := by
    rw [String.toList_append, hname]
    rfl
  have hblank : Text.isBlank c = false :=
    h.isWordText.isBlank_eq_false (by rw [hname]; exact List.mem_cons_self)
  have htrim : Text.trimStart ("sub" ++ (" " ++ (name.text ++ joinedFrom (some name.stop) shown))) =
      "sub" ++ (" " ++ (name.text ++ joinedFrom (some name.stop) shown)) :=
    Text.trimStart_of_head? (by rw [String.toList_append]; rfl) (by decide)
  rw [Item.routineName, htext, hsub, String.append_assoc, htrim, Text.stripStart?_append,
    Option.getD_some, Text.trimStart_space, Text.trimStart_of_head? hhead hblank,
    ← String.toList_inj, String.toList_ofList, String.toList_append,
    takeWhile_append_eq_iff hchars]
  exact h.runsOn_iff (by decide)

end

end Scan

/-! ## Extracted names -/

theorem Extract.AllItems.exists_documentedAt
    {extensions : List String} {es : List Element} {start : Nat} {found : List Item}
    (h : AllItems extensions es start found) {item : Item} (hitem : item ∈ found) :
    ∃ i, DocumentedAt extensions es i item := by
  obtain ⟨order, -, -, hdocumented, -⟩ := h.positions
  clear h
  induction hdocumented with
  | nil =>
      cases hitem
  | @cons i other order found hhead _ ih =>
      rcases List.mem_cons.mp hitem with rfl | hitem
      · exact ⟨i, hhead⟩
      · exact ih hitem

/-- A routine that is extracted stands for an element with a public name. -/
theorem Extract.DocumentedAt.routine
    {extensions : List String} {es : List Element} {i : Nat} {item : Item}
    (h : DocumentedAt extensions es i item) (hroutine : item.isRoutine = true) :
    ∃ e ∈ es, ∃ n, e.kind = .routine n ∧ isPrivate n = false ∧ item.statement = e.text ∧
      item.line = e.line := by
  obtain ⟨e, kind, description, test, hat, hselected, -, rfl⟩ := h
  rcases hselected with ⟨hkind, hpublic⟩ | - | -
  · rw [← isPrivate_iff, Bool.not_eq_true] at hpublic
    exact ⟨e, List.mem_of_getElem? hat, _, hkind, hpublic, rfl, rfl⟩
  · cases hroutine
  · cases hroutine

theorem Page.title_of_isRoutine {item : Item} (h : item.isRoutine = true) :
    Page.title item = Item.routineName item.statement := by
  unfold Item.isRoutine at h
  unfold Page.title
  split at h
  · next hkind => rw [hkind]
  · cases h

theorem Page.paragraph_isPrefix (text : String) :
    text.toList <+: (Page.paragraph text).toList := by
  rw [Page.paragraph, Page.line, String.append_assoc, String.toList_append]
  exact List.prefix_append _ _

theorem Page.heading_isPrefix (m : Module) :
    ("# " ++ m.name).toList <+: (Page.ofModule m).toList := by
  apply (Page.paragraph_isPrefix _).trans
  rw [Page.ofModule, String.append_assoc, String.toList_append]
  exact List.prefix_append _ _

/-- The names in the records of a module.  The name of the package is the one that the scanner
recorded for the first package exactly when no token that is joined to it goes on with a character
that is not blank; the name of a routine is the recorded one exactly when none goes on with a name
character.  Where the names are the recorded ones, so is everything that is derived from them. -/
theorem Module.extracted_names_iff
    (settings : ExtractSettings) (path : Path) (source : String) (m : Module)
    (h : Module.extract settings path source = .ok (.found m)) :
    (∃ i p name shown, Extract.FirstPackage (Element.scan source) i p ∧
      p.kind = .package name.text ∧ Scan.Declares source .package p name shown ∧
      m.package.statement = p.text ∧
      (m.name = name.text ↔ ¬ Scan.RunsOn (fun c => !Text.isBlank c) name shown) ∧
      (m.name = name.text →
        ("# " ++ name.text).toList <+: (Page.ofModule m).toList ∧
        m.package.segments = (Text.splitOn "::" name.text).filter (· != "") ∧
        ∀ script, Script.ofModule? m = some script → script.package = name.text)) ∧
    ∀ item ∈ m.items, item.isRoutine = true →
      ∃ e ∈ Element.scan source, ∃ name shown, e.kind = .routine name.text ∧
        Scan.Declares source .sub e name shown ∧ item.statement = e.text ∧ item.line = e.line ∧
        Extract.isPrivate name.text = false ∧
        (Item.routineName item.statement = name.text ↔
          ¬ Scan.RunsOn Item.isNameChar name shown) ∧
        (Item.routineName item.statement = name.text →
          Extract.isPrivate (Item.routineName item.statement) = false ∧
          Page.title item = name.text ∧
          ∀ test, item.namedTest? = some test → test.1 = name.text) := by
  have hextracts := Extract.extracts_ofElements settings.extensions path (Element.scan source)
  change Extract.Extracts _ _ _ (Module.extract settings path source) at hextracts
  rw [h] at hextracts
  cases hextracts with
  | @found i p description test items flavor hfirst hblock hitems hflavor =>
      constructor
      · obtain ⟨name, shown, hkind, hdeclares⟩ :=
          Scan.exists_declares_of_package (List.mem_of_getElem? hfirst.1) hfirst.2.1
        refine ⟨i, p, name, shown, hfirst, hkind, hdeclares, rfl,
          hdeclares.package_name_eq_iff rfl, ?_⟩
        intro hname
        refine ⟨hname ▸ Page.heading_isPrefix _, ?_, ?_⟩
        · rw [← hname]
          rfl
        · intro script hscript
          rw [Script.package_ofModule? hscript, hname]
      · intro item hitem hroutine
        obtain ⟨_, hdocumented⟩ := hitems.exists_documentedAt hitem
        obtain ⟨e, he, n, hkind, hpublic, hstatement, hline⟩ := hdocumented.routine hroutine
        obtain ⟨name, shown, rfl, hdeclares⟩ := Scan.exists_declares_of_routine he hkind
        refine ⟨e, he, name, shown, hkind, hdeclares, hstatement, hline, hpublic, ?_, ?_⟩
        · rw [hstatement]
          exact hdeclares.routineName_eq_iff
        · intro hname
          refine ⟨hname ▸ hpublic, (Page.title_of_isRoutine hroutine).trans hname, ?_⟩
          intro test htest
          obtain ⟨body, -, rfl⟩ := Option.map_eq_some_iff.mp htest
          exact hname

/-- A version behind the name of the package, and an attribute behind the name of the routine. -/
theorem Module.extracted_names_apart :
    let source := "package Foo::Bar 1.0;\nsub size : lvalue \x7b 1 \x7d\n"
    ∃ m, Module.extract {} ⟨"lib/Foo/Bar.pm"⟩ source = .ok (.found m) ∧ m.name = "Foo::Bar" ∧
      (∃ i p name shown, Extract.FirstPackage (Element.scan source) i p ∧
        p.kind = .package name.text ∧ Scan.Declares source .package p name shown ∧
        (m.name = name.text ↔ ¬ Scan.RunsOn (fun c => !Text.isBlank c) name shown)) ∧
      ∀ item ∈ m.items, item.isRoutine = true ∧ Item.routineName item.statement = "size" ∧
        ∃ e ∈ Element.scan source, ∃ name shown, e.kind = .routine name.text ∧
          Scan.Declares source .sub e name shown ∧
          (Item.routineName item.statement = name.text ↔
            ¬ Scan.RunsOn Item.isNameChar name shown) := by
  intro source
  let m : Module :=
    { path := ⟨"lib/Foo/Bar.pm"⟩
      package := ⟨"package Foo::Bar 1.0", "", 1⟩
      items := [⟨.routine none, "sub size : lvalue", "", 2⟩]
      flavor := .core }
  have hfound : Module.extract {} ⟨"lib/Foo/Bar.pm"⟩ source = .ok (.found m) := by
    decide +kernel
  obtain ⟨⟨i, p, name, shown, hfirst, hkind, hdeclares, -, hiff, -⟩, hroutines⟩ :=
    Module.extracted_names_iff {} _ source m hfound
  refine ⟨m, hfound, by decide +kernel, ⟨i, p, name, shown, hfirst, hkind, hdeclares, hiff⟩, ?_⟩
  intro item hitem
  obtain rfl := List.mem_singleton.mp hitem
  obtain ⟨e, he, name, shown, hkind, hdeclares, -, -, -, hiff, -⟩ := hroutines _ hitem rfl
  exact ⟨rfl, by decide +kernel, e, he, name, shown, hkind, hdeclares, hiff⟩

/-- An attribute without a gap in front of it is taken for a part of the name. -/
theorem Module.extracted_name_runs_on :
    let source := "package P;\nsub size:lvalue \x7b 1 \x7d\n"
    ∃ m, Module.extract {} ⟨"lib/P.pm"⟩ source = .ok (.found m) ∧
      (Element.scan source).map Element.kind = [.package "P", .routine "size"] ∧
      m.items.map (fun item => Item.routineName item.statement) = ["size:lvalue"] := by
  intro source
  refine ⟨
    { path := ⟨"lib/P.pm"⟩
      package := ⟨"package P", "", 1⟩
      items := [⟨.routine none, "sub size:lvalue", "", 2⟩]
      flavor := .core }, ?_, ?_, ?_⟩
  · decide +kernel
  · decide +kernel
  · decide +kernel

end MarkerDoc
