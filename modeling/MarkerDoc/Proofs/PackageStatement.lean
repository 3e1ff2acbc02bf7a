import MarkerDoc.Proofs.Extract
import MarkerDoc.Proofs.Scanner

/-!
# What a package statement looks like

The name of a package is read off its statement as the second word of the text, not off the token
that the scanner looked at.  The two agree at their beginning: words never touch, so there is a
space between the keyword and the token, and the second word begins where the token does.  They need
not agree further, since the second word goes on up to the next gap in the source.
-/

namespace MarkerDoc

namespace Token

/-! ## Words stand apart -/

/-- A word token begins like a word, and no other word begins where it ends. -/
theorem Step.of_isWord
    {cursor next : Cursor} {cs rest : List Char} {t : Token}
    (h : Step cursor cs (some t) next rest) (hword : t.kind.isWord = true) :
    (∃ c, cs.head? = some c ∧ Lexeme.isWordStart c = true ∧ t.text.toList.head? = some c) ∧
      Lexeme.NoWordAhead rest ∧ (t.kind = .package → t.text = "package") := by
  cases h with
  | @strayEnd c cs n hpod hscan hstart =>
      have hc : Lexeme.isWordStart c = true := by
        rw [← Lexeme.isWord_scan c cs, hscan]
        rfl
      have hn : n = Lexeme.bareWordTail cs := by
        rw [Lexeme.scan_of_isWordStart hc] at hscan
        exact (Prod.mk.inj hscan).2.symm
      subst hn
      exact ⟨⟨c, rfl, hc, by rw [String.toList_ofList]; rfl⟩, (Lexeme.bareWordTail_spec cs).2,
        by simp⟩
  | quoted =>
      simp [Kind.isWord] at hword
  | @comment c cs kind n hpod hscan hkind =>
      cases kind <;> simp [Kind.isWord, Kind.isComment] at hword hkind
  | @plain c cs kind n hpod hscan hkind hquote =>
      have hc : Lexeme.isWordStart c = true := by
        rw [← Lexeme.isWord_scan c cs, hscan]
        exact hword
      rw [Lexeme.scan_of_isWordStart hc] at hscan
      obtain ⟨hkind, rfl⟩ := Prod.mk.inj hscan
      refine ⟨⟨c, rfl, hc, by rw [String.toList_ofList]; rfl⟩, (Lexeme.bareWordTail_spec cs).2, ?_⟩
      rintro rfl
      exact Lexeme.ofWord_eq_package hkind

/-- The tokens from a position on, as far as words among them are concerned. -/
structure WordsApart (cursor : Cursor) (cs : List Char) (ts : List Token) : Prop where
  start : ∀ t, ts.head? = some t → cursor.offset ≤ t.start
  ahead : Lexeme.NoWordAhead cs →
    ∀ t, ts.head? = some t → t.kind.isWord = true → cursor.offset < t.start
  gap : ts.IsChain fun t u => t.kind.isWord = true → u.kind.isWord = true → t.stop < u.start
  word : ∀ t ∈ ts, t.kind.isWord = true →
    ∃ c, t.text.toList.head? = some c ∧ Lexeme.isWordStart c = true
  package : ∀ t ∈ ts, t.kind = .package → t.text = "package"

theorem WordsApart.nil (cursor : Cursor) (cs : List Char) : WordsApart cursor cs [] :=
  ⟨by simp, by simp, .nil, by simp, by simp⟩

theorem WordsApart.of_step
    {cursor next : Cursor} {cs rest : List Char} {found : Option Token} {ts : List Token}
    (h : WordsApart next rest ts) (hstep : Step cursor cs found next rest) :
    WordsApart cursor cs (found.toList ++ ts) := by
  obtain ⟨run, hrun⟩ := hstep.exists_passes
  have hoffset : cursor.offset < next.offset := by
    rw [hrun.offset]
    exact Nat.lt_add_of_pos_right (byteSize_pos hrun.nonempty)
  cases found with
  | none =>
      exact ⟨fun t ht => hoffset.le.trans (h.start t ht),
        fun _ t ht _ => hoffset.trans_le (h.start t ht), h.gap, h.word, h.package⟩
  | some t =>
      obtain ⟨hstart, htext⟩ := hrun.token t rfl
      have hstop : t.stop = next.offset := by
        rw [stop, hstart, htext, utf8ByteSize_ofList, hrun.offset]
      constructor
      · rintro u ⟨⟩
        exact hstart.ge
      · -- A token that starts right here is a word only if a word is ahead.
        rintro hahead u ⟨⟩ hword
        obtain ⟨⟨c, hhead, hc, -⟩, -⟩ := hstep.of_isWord hword
        exact absurd ((hahead c hhead).symm.trans hc) Bool.false_ne_true
      · refine List.isChain_cons.mpr ⟨fun u hu hword hword' => ?_, h.gap⟩
        rw [hstop]
        exact h.ahead (hstep.of_isWord hword).2.1 u hu hword'
      · rintro u (_ | ⟨_, hu⟩) hword
        · obtain ⟨⟨c, -, hc, hhead⟩, -⟩ := hstep.of_isWord hword
          exact ⟨c, hhead, hc⟩
        · exact h.word u hu hword
      · rintro u (_ | ⟨_, hu⟩) hkind
        · exact (hstep.of_isWord (by rw [hkind]; rfl)).2.2 hkind
        · exact h.package u hu hkind

theorem wordsApart_lex (source : String) : WordsApart .start source.toList (lex source) := by
  rw [lex_eq_lexAt]
  exact lexAt_induction (fun cursor => .nil cursor []) (fun cursor cs _ => .nil cursor cs)
    (fun _ _ _ _ _ hstep h => h.of_step hstep) .start source.toList

end Token

namespace Scan

/-! ## Package elements -/

theorem isPackage_statementElement (source : String) (first : Token) (rest : List Token) :
    (statementElement source first rest).1.isPackage = false := by
  have hkind : ∀ name, statementKind first rest ≠ .package name := by
    intro name
    unfold statementKind
    split
    · split <;> [split; skip] <;> simp
    · split_ifs <;> simp
    · simp
  unfold Element.isPackage
  split
  · next name hname => exact absurd hname (hkind name)
  · rfl

theorem isPackage_step
    {source : String} {t : Token} {ts : List Token} {e : Element} (hkind : t.kind ≠ .package)
    (h : (step source t ts).1 = some e) : e.isPackage = false := by
  unfold step at h
  split at h
  · obtain rfl := Option.some.inj h
    rfl
  · obtain rfl := Option.some.inj h
    rfl
  · obtain rfl := Option.some.inj h
    rfl
  · cases h
  · obtain rfl := Option.some.inj h
    rfl
  · contradiction
  · split at h
    · split at h
      · obtain rfl := Option.some.inj h
        rfl
      · obtain rfl := Option.some.inj h
        exact isPackage_statementElement ..
    · obtain rfl := Option.some.inj h
      exact isPackage_statementElement ..
  · obtain rfl := Option.some.inj h
    exact isPackage_statementElement ..

theorem step_of_isPackage
    {source : String} {t : Token} {ts : List Token} {e : Element}
    (h : (step source t ts).1 = some e) (he : e.isPackage = true) :
    t.kind = .package ∧ ∃ u us n, ts = u :: us ∧ u.kind = .bareWord ∧
      e.text = joined (t :: u :: us.take n) := by
  have hkind : t.kind = .package := by
    by_contra hkind
    exact Bool.false_ne_true ((isPackage_step hkind h).symm.trans he)
  refine ⟨hkind, ?_⟩
  simp only [step, hkind, packageElement, Option.some.injEq] at h
  subst h
  cases ts with
  | nil =>
      simp [element, Element.isPackage] at he
  | cons u us =>
      by_cases hu : u.kind = .bareWord
      · refine ⟨u, us, packageLength us, rfl, hu, ?_⟩
        simp [element, packageLength, hu, Token.Kind.isComment]
      · simp [element, Element.isPackage, hu] at he

theorem elements_of_isPackage
    {source : String} {ts : List Token} {e : Element} (h : e ∈ elements source ts)
    (he : e.isPackage = true) :
    ∃ front t u us n, ts = front ++ t :: u :: us ∧ t.kind = .package ∧ u.kind = .bareWord ∧
      e.text = joined (t :: u :: us.take n) := by
  obtain ⟨front, t, rest, rfl, hstep⟩ := exists_step_of_mem_elements h
  obtain ⟨ht, u, us, n, rfl, hu, htext⟩ := step_of_isPackage hstep he
  exact ⟨front, t, u, us, n, rfl, ht, hu, htext⟩

theorem joinedFrom_word
    {t : Token} (ht : t.kind.isComment = false) (last : Option Nat) (ts : List Token) :
    joinedFrom last (t :: ts) =
      (match last with
        | some stop => if stop < t.start then " " else ""
        | none => "") ++ t.text ++ joinedFrom (some t.stop) ts := by
  cases last with
  | none => simp [joinedFrom, ht]
  | some stop => simp [joinedFrom, ht]

end Scan

/-- The statement of a package is its keyword, a space, and then a text that begins like a word. -/
theorem Element.exists_statement_of_isPackage
    {source : String} {e : Element} (h : e ∈ Element.scan source) (he : e.isPackage = true) :
    ∃ rest c, e.text = "package" ++ " " ++ rest ∧ rest.toList.head? = some c ∧
      Lexeme.isWordStart c = true := by
  obtain ⟨front, t, u, us, n, hts, ht, hu, htext⟩ := Scan.elements_of_isPackage h he
  have hwords := Token.wordsApart_lex source
  have hgap : t.stop < u.start := by
    have hchain := hwords.gap
    rw [hts, List.isChain_append] at hchain
    exact (List.isChain_cons_cons.mp hchain.2.1).1 (by rw [ht]; rfl) (by rw [hu]; rfl)
  obtain ⟨c, hc, hstart⟩ := hwords.word u (by simp [hts]) (by rw [hu]; rfl)
  refine ⟨u.text ++ Scan.joinedFrom (some u.stop) (us.take n), c, ?_, ?_, hstart⟩
  · rw [htext, Scan.joined, Scan.joinedFrom_word (by rw [ht]; rfl),
      Scan.joinedFrom_word (by rw [hu]; rfl), hwords.package t (by simp [hts]) ht]
    simp only [hgap, if_true, String.empty_append, String.append_assoc]
  · rw [String.toList_append, List.head?_append, hc]
    rfl

theorem Module.exists_head?_name
    {settings : ExtractSettings} {path : Path} {source : String} {m : Module}
    (h : Module.extract settings path source = .ok (.found m)) :
    ∃ c, m.name.toList.head? = some c ∧ Lexeme.isWordStart c = true := by
  have hextracts := Extract.extracts_ofElements settings.extensions path (Element.scan source)
  change Extract.Extracts _ _ _ (Module.extract settings path source) at hextracts
  rw [h] at hextracts
  cases hextracts with
  | @found i p description test items flavor hfirst hblock hitems hflavor =>
      obtain ⟨hat, hpackage, -⟩ := hfirst
      obtain ⟨rest, c, htext, hhead, hc⟩ :=
        Element.exists_statement_of_isPackage (List.mem_of_getElem? hat) hpackage
      have hblank : Text.isBlank c = false :=
        Lexeme.isBlank_of_isWordChar (Lexeme.isWordChar_of_isWordStart hc)
      obtain ⟨cs, hcs⟩ := List.head?_eq_some_iff.mp hhead
      refine ⟨c, ?_, hc⟩
      rw [Module.name, PackageItem.name, htext,
        Text.words_second (by decide) (fun _ hd => Lexeme.isName_package.isBlank_eq_false hd) hhead
          hblank, Option.getD_some,
        String.toList_ofList, hcs, List.takeWhile_cons_of_pos (by simp [hblank])]
      rfl

/-- The first segment of an extracted module begins like a word. -/
theorem Module.exists_first_segment
    {settings : ExtractSettings} {path : Path} {source : String} {m : Module}
    (h : Module.extract settings path source = .ok (.found m)) :
    ∃ first rest c, m.package.segments = first :: rest ∧ first.toList.head? = some c ∧
      Lexeme.isWordStart c = true := by
  obtain ⟨c, hhead, hc⟩ := Module.exists_head?_name h
  obtain ⟨cs, hname⟩ := List.head?_eq_some_iff.mp hhead
  have hcolon : c ≠ ':' := Lexeme.ne_of_isWordStart hc (by decide)
  obtain ⟨tail, rest, hsplit⟩ := Text.exists_splitOn_of_ne hcolon hname
  refine ⟨String.ofList (c :: tail), rest.filter (· != ""), c, ?_, ?_, hc⟩
  · have hne : (String.ofList (c :: tail) != "") = true := by simp
    rw [PackageItem.segments, namespaceSeparator]
    change (Text.splitOn "::" m.name).filter _ = _
    rw [hsplit, List.filter_cons, if_pos hne]
  · rw [String.toList_ofList]
    rfl

end MarkerDoc
