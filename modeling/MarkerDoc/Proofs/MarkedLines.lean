import MarkerDoc.Proofs.Retention

/-!
# Marked lines

The scanner gives a comment its marker by the kind of the token and by the place on the line.  A
block is read by the characters that its lines begin with, and lines that begin otherwise would be
passed over.  The two agree, so the blocks next to a declaration are read with all their lines.

A comment reaches to the end of its line.  What the scanner finds behind it is on a later line, and
a line has one comment at most.
-/

namespace MarkerDoc

/-! ## Lines of comments -/

theorem count_lt_lineAt
    {source : String} {front rest : List Char} (h : source.toList = front ++ rest) {n : Nat}
    (hn : byteSize front ≤ n) : front.count '\n' < lineAt source n := by
  rw [lineAt_eq, h, charsBefore_append, charsBefore_of_le hn, List.count_append]
  omega

/-- The tokens behind a comment are on later lines. -/
theorem Token.lineAt_lt_of_isComment
    {source : String} {front ts : List Token} {t u : Token} (h : lex source = front ++ t :: ts)
    (hcomment : t.kind.isComment = true) (hu : u ∈ ts) :
    lineAt source t.start < lineAt source u.start := by
  rw [lex_eq_lexAt] at h
  obtain ⟨passed, here, next, rest, hstep, hsource, hstart, hnext, hbehind⟩ :=
    exists_step_of_lexAt h
  obtain ⟨body, hbody⟩ := hstep.exists_commentText hcomment
  rcases hbody.rest with rfl | hhead
  · rw [lexAt_nil] at hbehind
    subst hbehind
    cases hu
  · obtain ⟨rest, rfl⟩ := List.head?_eq_some_iff.mp hhead
    rw [lexAt_newline] at hbehind
    subst hbehind
    have hle : next.offset + 1 ≤ u.start := (start_lt_stop_of_mem_lexAt hu).1
    have hline : source.toList = (passed ++ t.text.toList ++ ['\n']) ++ rest := by
      simp [hsource]
    have hbreak : byteSize ['\n'] = 1 := rfl
    have hsize : byteSize (passed ++ t.text.toList ++ ['\n']) ≤ u.start := by
      rw [byteSize_append, byteSize_append, byteSize_toList, hbreak]
      rw [hnext, stop, hstart] at hle
      simpa [Cursor.start] using hle
    have hlater := count_lt_lineAt hline hsize
    rw [List.count_append, List.count_append, List.count_singleton_self] at hlater
    have hhere : lineAt source t.start = 1 + passed.count '\n' := by
      rw [hstart, ← lineAt_byteSize hsource]
      simp [Cursor.start]
    omega

namespace Scan

/-- The comment elements are on the lines of comment tokens, in the same order. -/
theorem lines_sublist (source : String) (ts : List Token) :
    (((elements source ts).filterMap CommentLine.ofElement?).map (·.line)).Sublist
      ((ts.filter (·.kind.isComment)).map (lineAt source ·.start)) := by
  induction ts using elements_induction source with
  | nil =>
      simp [elements_nil]
  | cons t ts ih =>
      -- The tokens that the step uses up give no elements of their own.
      have hrest := ih.trans
        (((List.drop_sublist (step source t ts).2 ts).filter (·.kind.isComment)).map
          (lineAt source ·.start))
      have hpassed := hrest.trans
        (((List.sublist_cons_self t ts).filter (·.kind.isComment)).map (lineAt source ·.start))
      rw [elements_cons]
      cases hstep : (step source t ts).1 with
      | none => exact hpassed
      | some e =>
          cases hmarker : e.marker? with
          | none => simpa [CommentLine.ofElement?, hmarker] using hpassed
          | some marker =>
              obtain ⟨given, hgiven, rfl⟩ := step_of_marker? hstep hmarker
              rw [List.filter_cons_of_pos (by exact hgiven.isComment)]
              exact hrest.cons_cons (lineAt source t.start)

end Scan

theorem CommentLine.pairwise_line_lt (source : String) :
    ((Element.scan source).filterMap CommentLine.ofElement?).Pairwise
      fun k l => k.line < l.line := by
  have htokens : (Token.lex source).Pairwise fun t u =>
      t.kind.isComment = true → lineAt source t.start < lineAt source u.start := by
    rw [List.pairwise_iff_forall_sublist]
    intro t u hsublist hcomment
    obtain ⟨front, behind, hsplit, ht, hu⟩ := List.cons_sublist_iff.mp hsublist
    obtain ⟨before, between, rfl⟩ := List.append_of_mem ht
    have hlex : Token.lex source = before ++ t :: (between ++ behind) := by
      simp [hsplit]
    apply Token.lineAt_lt_of_isComment hlex hcomment
    exact List.mem_append_right _ (List.singleton_sublist.mp hu)
  have hlines : (((Token.lex source).filter (·.kind.isComment)).map
      (lineAt source ·.start)).Pairwise (· < ·) := by
    rw [List.pairwise_map, List.pairwise_filter]
    exact htokens.imp fun h ht _ => h ht
  exact List.pairwise_map.mp (hlines.sublist (Scan.lines_sublist source (Token.lex source)))

namespace DocBlock

/-- A block is read with all its lines.  Each of them carries the marker, the texts behind the
markers are taken from them one by one, and the lines of a block that documents something are found
again in the description or in the test. -/
structure ReadsAllLines (marker : Marker) (block : List CommentLine) : Prop where
  strips : ∀ l ∈ block, (stripMarker? l.raw marker).isSome = true
  texts : List.Forall₂ (fun l s => s.1 = l.line ∧ CarriesText marker l.raw s.2) block
    (stripped block marker)
  keeps : ∀ description test, classify block marker = .ok (.documented description test) →
    KeepsBlock marker block description test true

theorem readsAllLines
    {marker : Marker} {block : List CommentLine} (h : ∀ l ∈ block, IsMarkedLine marker l) :
    ReadsAllLines marker block where
  strips l hl := by
    obtain ⟨text, htext⟩ := (h l hl).carries
    rw [stripMarker?_eq_some_iff.mpr htext]
    rfl
  texts := forall₂_stripped h
  keeps _ _ hblock := keepsBlock_test h hblock

end DocBlock

namespace Extract

open DocBlock

/-- The scanner and the reader of blocks agree on the markers.  A comment element is one line of the
source that begins with a number sign.  It has a documentation marker just if it begins with the
characters of that marker and only white space stands before it on its line.  No two comments share
a line, and the blocks behind and before an element are read with all their lines. -/
theorem scan_markers_agree (source : String) :
    (∀ e ∈ Element.scan source, ∀ marker, e.kind = .comment marker →
      ∃ front body returns rest, source.toList = front ++ (e.text.toList ++ (returns ++ rest)) ∧
        e.span.start = byteSize front ∧ e.line = 1 + front.count '\n' ∧
        e.text.toList = '#' :: body ∧ '\n' ∉ body ∧ (∀ c ∈ returns, c = '\r') ∧
        (rest = [] ∨ rest.head? = some '\n') ∧
        (marker = .packageDoc ↔ "##!".toList <+: e.text.toList ∧ EndsInBlanks front) ∧
        (marker = .itemDoc ↔ "###".toList <+: e.text.toList ∧ EndsInBlanks front) ∧
        (marker = .plain ↔ ¬ ("##!".toList <+: e.text.toList ∧ EndsInBlanks front) ∧
          ¬ ("###".toList <+: e.text.toList ∧ EndsInBlanks front))) ∧
    ((Element.scan source).filterMap CommentLine.ofElement?).Pairwise
      (fun k l => k.line < l.line) ∧
    ∀ before e after, Element.scan source = before ++ e :: after →
      ReadsAllLines .packageDoc (leadingRun .packageDoc after) ∧
      ReadsAllLines .itemDoc (leadingRun .itemDoc before.reverse).reverse := by
  refine ⟨?_, CommentLine.pairwise_line_lt source, ?_⟩
  · intro e he marker hkind
    have hmarker : e.marker? = some marker := by
      rw [Element.marker?, hkind]
    obtain ⟨front, hat⟩ := Element.exists_commentAt he hmarker
    obtain ⟨body, returns, rest, htext, hbody, hsource, hreturns, hrest⟩ := hat.text
    have hpackage := hat.marker_iff .packageDoc _ rfl
    have hitem := hat.marker_iff .itemDoc _ rfl
    refine ⟨front, body, returns, rest, ?_, hat.start, hat.line, htext, hbody, hreturns, hrest,
      hpackage, hitem, ?_⟩
    · rw [htext, hsource]
    · rw [← hpackage, ← hitem]
      cases marker <;> simp
  · intro before e after hscan
    have hafter : ∀ e' ∈ after, e' ∈ Element.scan source := by
      intro e' he'
      simp [hscan, he']
    have hbefore : ∀ e' ∈ before.reverse, e' ∈ Element.scan source := by
      intro e' he'
      simp [hscan, List.mem_reverse.mp he']
    constructor
    · exact readsAllLines (isMarkedLine_leadingRun hafter (by simp))
    · apply readsAllLines
      intro l hl
      exact isMarkedLine_leadingRun hbefore (by simp) l (List.mem_reverse.mp hl)

/-- Behind code the characters of a marker begin a plain comment. -/
example :
    (Element.scan "my $x; ### one\n \t### two\r\n##! three").filterMap CommentLine.ofElement? =
      [⟨.plain, "### one", 1⟩, ⟨.itemDoc, "### two", 2⟩, ⟨.packageDoc, "##! three", 3⟩] := by
  decide +kernel

end Extract

end MarkerDoc
