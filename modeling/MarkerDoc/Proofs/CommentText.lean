import MarkerDoc.Proofs.Coverage
import MarkerDoc.Proofs.Extract
import MarkerDoc.Proofs.FenceGrammar
import MarkerDoc.Proofs.Scanner

/-!
# Comment lines

A comment token is a number sign with the rest of its line.  Its kind is decided by the characters
behind the number sign, so an element with a documentation marker begins with the characters of that
marker.  Hence every line of a block carries the marker of the block, and stripping the markers
loses none of the lines.
-/

namespace MarkerDoc

namespace Lexeme

theorem ofComment_takeWhile (cs : List Char) :
    ofComment (cs.takeWhile (· != '\n')) = ofComment cs := by
  have hfirst : ∀ c d : Char, c ≠ '\n' → ∀ rest : List Char,
      (c :: d :: rest).takeWhile (· != '\n') = c :: (d :: rest).takeWhile (· != '\n') := by
    intro c d hc rest
    exact List.takeWhile_cons_of_pos (by simpa using hc)
  cases cs with
  | nil => rfl
  | cons c cs =>
      by_cases hc : c = '#'
      · subst hc
        cases cs with
        | nil => rfl
        | cons d cs =>
            by_cases hd : d = '\n'
            · subst hd
              rfl
            · rw [hfirst _ _ (by decide), List.takeWhile_cons_of_pos (by simpa using hd)]
              unfold ofComment
              split <;> simp_all
      · by_cases hline : c = '\n'
        · subst hline
          rfl
        · rw [List.takeWhile_cons_of_pos (by simpa using hline)]
          unfold ofComment
          split <;> simp_all

end Lexeme

/-! ## Places on a line -/

/-- Only white space stands in front of a place on its line. -/
def EndsInBlanks (front : List Char) : Prop :=
  ∃ lines blanks, front = lines ++ blanks ∧ AtLineStart lines ∧ '\n' ∉ blanks ∧
    ∀ c ∈ blanks, Text.isBlank c = true

/-- Every place stands behind some whole lines and the front of its own line. -/
theorem exists_atLineStart (front : List Char) :
    ∃ lines here, front = lines ++ here ∧ AtLineStart lines ∧ '\n' ∉ here := by
  obtain ⟨here, hsplit, hhere⟩ := Text.exists_dropEndWhile (· != '\n') front
  refine ⟨_, here, hsplit, ?_, fun hmem => by simpa using hhere _ hmem⟩
  cases hlast : (Text.dropEndWhile (· != '\n') front).getLast? with
  | none => exact .inl (List.getLast?_eq_none_iff.mp hlast)
  | some c =>
      have hc := Text.getLast?_dropEndWhile hlast
      obtain rfl : c = '\n' := by simpa using hc
      exact .inr hlast

theorem opensLine_iff
    {source : String} {front rest : List Char} (h : source.toList = front ++ rest) :
    opensLine source (byteSize front) = true ↔ EndsInBlanks front := by
  have hrun : ∀ {lines here : List Char}, AtLineStart lines → '\n' ∉ here →
      (lines ++ here).reverse.takeWhile (· != '\n') = here.reverse := by
    intro lines here hlines hhere
    rw [takeWhile_reverse_append hlines, List.takeWhile_eq_self_iff]
    intro c hc
    simpa using ne_of_mem_of_not_mem (List.mem_reverse.mp hc) hhere
  rw [opensLine, h, charsBefore_byteSize, List.all_eq_true]
  constructor
  · intro hblank
    obtain ⟨lines, here, rfl, hlines, hhere⟩ := exists_atLineStart front
    rw [hrun hlines hhere] at hblank
    exact ⟨lines, here, rfl, hlines, hhere, fun c hc => hblank c (List.mem_reverse.mpr hc)⟩
  · rintro ⟨lines, blanks, rfl, hlines, hline, hblanks⟩ c hc
    rw [hrun hlines hline] at hc
    exact hblanks c (List.mem_reverse.mp hc)

namespace Token

/-! ## Comment tokens -/

/-- A comment with the text behind it: a number sign and the rest of a line, which decides the
kind. -/
structure IsCommentText (t : Token) (body rest : List Char) : Prop where
  text : t.text.toList = '#' :: body
  line : '\n' ∉ body
  kind : t.kind = Lexeme.ofComment body
  rest : rest = [] ∨ rest.head? = some '\n'

theorem Step.exists_commentText
    {cursor next : Cursor} {cs rest : List Char} {t : Token}
    (h : Step cursor cs (some t) next rest) (hcomment : t.kind.isComment = true) :
    ∃ body, IsCommentText t body rest := by
  -- Whatever the step took it for, only a number sign makes a comment of it.
  have hnumberSign : ∀ {c : Char} {cs : List Char} {kind : Kind} {n : Nat},
      Lexeme.scan c cs = (.token kind, n) → kind.isComment = true →
        ∃ body, IsCommentText ⟨kind, cursor.offset, String.ofList (c :: cs.take n)⟩ body
          (cs.drop n) := by
    intro c cs kind n hscan hkind
    obtain rfl : c = '#' := by
      by_contra hc
      have hnone := Lexeme.isComment_scan hc cs
      rw [hscan] at hnone
      exact Bool.false_ne_true (hnone.symm.trans hkind)
    rw [Lexeme.scan_comment] at hscan
    obtain ⟨hlexeme, rfl⟩ := Prod.mk.inj hscan
    obtain rfl := Lexeme.token.inj hlexeme
    refine ⟨cs.takeWhile (· != '\n'), ?_, ?_, (Lexeme.ofComment_takeWhile cs).symm, ?_⟩
    · rw [Text.take_length_takeWhile, String.toList_ofList]
    · intro hmem
      simpa using List.mem_takeWhile_imp hmem
    · rw [Text.drop_length_takeWhile]
      cases hhead : (cs.dropWhile (· != '\n')).head? with
      | none => exact .inl (List.head?_eq_none_iff.mp hhead)
      | some c =>
          have hc := Text.head?_dropWhile _ cs hhead
          obtain rfl : c = '\n' := by simpa using hc
          exact .inr rfl
  cases h with
  | strayEnd | quoted => cases hcomment
  | comment hpod hscan hkind => exact hnumberSign hscan hkind
  | plain hpod hscan hkind hquote => exact hnumberSign hscan hcomment

/-- A comment reaches from its place to the end of the line. -/
theorem exists_commentText_of_mem_lex
    {source : String} {t : Token} (h : t ∈ lex source) (hcomment : t.kind.isComment = true) :
    ∃ front body rest, source.toList = front ++ (t.text.toList ++ rest) ∧
      t.start = byteSize front ∧ IsCommentText t body rest := by
  obtain ⟨front, ts, hsplit⟩ := List.append_of_mem h
  rw [lex_eq_lexAt] at hsplit
  obtain ⟨passed, _, _, rest, hstep, hsource, hstart, -⟩ := exists_step_of_lexAt hsplit
  obtain ⟨body, hbody⟩ := hstep.exists_commentText hcomment
  exact ⟨passed, body, rest, hsource, hstart.trans (Nat.zero_add _), hbody⟩

end Token

namespace Scan

/-! ## Comment elements -/

/-- The marker that a comment is given for its kind. -/
inductive IsMarkedBy : Marker → Token.Kind → Prop
  | packageDoc : IsMarkedBy .packageDoc .packageDoc
  | itemDoc : IsMarkedBy .itemDoc .itemDoc
  | plain : IsMarkedBy .plain .comment

theorem IsMarkedBy.isComment
    {marker : Marker} {kind : Token.Kind} (h : IsMarkedBy marker kind) :
    kind.isComment = true := by
  cases h <;> rfl

/-- A comment has the marker that it begins with. -/
theorem IsMarkedBy.lead_iff
    {given marker : Marker} {body : List Char} {lead : String}
    (h : IsMarkedBy given (Lexeme.ofComment body)) (hlead : marker.lead? = some lead) :
    given = marker ↔ lead.toList <+: '#' :: body := by
  unfold Lexeme.ofComment at h
  -- The two characters behind the number sign decide both sides.
  split at h <;> cases h <;> cases marker <;> cases hlead <;> simp_all [List.cons_prefix_iff]

/-- Only a comment gives an element with a marker. -/
theorem step_of_marker?
    {source : String} {t : Token} {rest : List Token} {e : Element} {marker : Marker}
    (h : (step source t rest).1 = some e) (hmarker : e.marker? = some marker) :
    ∃ given, IsMarkedBy given t.kind ∧ e = commentElement source given t rest := by
  have hstatement : ∀ e', e'.kind.isStatement = true → some e' ≠ some e := by
    rintro e' he' ⟨⟩
    rw [marker?_eq_none_of_isStatement he'] at hmarker
    cases hmarker
  cases hkind : t.kind with
  | packageDoc | itemDoc | comment =>
      simp only [step, hkind, Option.some.injEq] at h
      exact ⟨_, by constructor, h.symm⟩
  | semicolon =>
      simp [step, hkind] at h
  | rightBrace =>
      simp only [step, hkind] at h
      exact absurd h (hstatement _ rfl)
  | package =>
      simp only [step, hkind, packageElement, Option.some.injEq] at h
      subst h
      unfold Element.marker? element at hmarker
      simp only at hmarker
      cases rest with
      | nil => cases hmarker
      | cons u us =>
          simp only at hmarker
          split_ifs at hmarker
  | sub =>
      simp only [step, hkind] at h
      cases rest with
      | nil => exact absurd h (hstatement _ (isStatement_statementKind t []))
      | cons u us =>
          simp only at h
          split_ifs at h
          · exact absurd h (hstatement _ rfl)
          · exact absurd h (hstatement _ (isStatement_statementKind t (u :: us)))
  | use | bareWord | variableName | string | number | leftBrace | punctuation =>
      simp only [step, hkind] at h
      exact absurd h (hstatement _ (isStatement_statementKind t rest))

end Scan

theorem Text.dropEndWhile_append
    {α : Type} {p : α → Bool} {front : List α} (hfront : ∀ x ∈ front, p x = false)
    (xs : List α) : dropEndWhile p (front ++ xs) = front ++ dropEndWhile p xs := by
  obtain ⟨back, hsplit, hback⟩ := exists_dropEndWhile p xs
  rw [dropEndWhile_eq_iff]
  refine ⟨⟨back, ?_, hback⟩, ?_⟩
  · rw [List.append_assoc, ← hsplit]
  · intro x hx
    rw [List.getLast?_append, Option.or_eq_some_iff] at hx
    rcases hx with hx | ⟨-, hx⟩
    · exact getLast?_dropEndWhile hx
    · exact hfront x (List.mem_of_getLast? hx)

theorem Text.isPrefix_dropEndWhile_iff
    {α : Type} {p : α → Bool} {front : List α} (hfront : ∀ x ∈ front, p x = false)
    {xs : List α} : front <+: dropEndWhile p xs ↔ front <+: xs := by
  constructor
  · intro h
    exact h.trans (List.rdropWhile_prefix p xs)
  · rintro ⟨rest, rfl⟩
    rw [dropEndWhile_append hfront]
    exact List.prefix_append _ _

theorem Marker.return_not_mem_lead
    {marker : Marker} {lead : String} (h : marker.lead? = some lead) :
    ∀ c ∈ lead.toList, (c == '\r') = false := by
  cases marker with
  | packageDoc | itemDoc =>
      obtain rfl := Option.some.inj h
      simp
  | plain => cases h

/-- A comment element in its source behind `front`: the rest of the line, without the carriage
returns at its end.  It has the marker that it begins with if only white space stands before it on
the line. -/
structure Element.CommentAt (source : String) (e : Element) (marker : Marker)
    (front : List Char) : Prop where
  start : e.span.start = byteSize front
  line : e.line = 1 + front.count '\n'
  text : ∃ body returns rest, e.text.toList = '#' :: body ∧ '\n' ∉ body ∧
    source.toList = front ++ ('#' :: body ++ (returns ++ rest)) ∧ (∀ c ∈ returns, c = '\r') ∧
    (rest = [] ∨ rest.head? = some '\n')
  marker_iff : ∀ m lead, m.lead? = some lead →
    (marker = m ↔ lead.toList <+: e.text.toList ∧ EndsInBlanks front)

theorem Element.CommentAt.newline_not_mem
    {source : String} {e : Element} {marker : Marker} {front : List Char}
    (h : e.CommentAt source marker front) : '\n' ∉ e.text.toList := by
  obtain ⟨body, -, -, htext, hbody, -⟩ := h.text
  simp [htext, hbody]

theorem Element.exists_commentAt
    {source : String} {e : Element} {marker : Marker} (h : e ∈ Element.scan source)
    (hmarker : e.marker? = some marker) : ∃ front, e.CommentAt source marker front := by
  obtain ⟨before, t, ts, hlex, hstep⟩ := Scan.exists_step_of_mem_elements h
  obtain ⟨given, hgiven, rfl⟩ := Scan.step_of_marker? hstep hmarker
  have hmem : t ∈ Token.lex source := by
    simp [hlex]
  obtain ⟨front, body, rest, hsource, hstart, hbody⟩ :=
    Token.exists_commentText_of_mem_lex hmem hgiven.isComment
  obtain ⟨returns, hreturns, hall⟩ := Text.exists_dropEndWhile (· == '\r') body
  have hstripped : (Scan.commentElement source given t ts).text.toList =
      Text.dropEndWhile (· == '\r') ('#' :: body) := by
    rw [← hbody.text]
    exact String.toList_ofList
  have hsign : ∀ c ∈ ['#'], (c == '\r') = false := by
    simp
  have htext : (Scan.commentElement source given t ts).text.toList =
      '#' :: Text.dropEndWhile (· == '\r') body :=
    hstripped.trans (Text.dropEndWhile_append hsign body)
  refine ⟨front, ⟨?_, ?_, ⟨_, returns, rest, htext, ?_, ?_, ?_, hbody.rest⟩, ?_⟩⟩
  · exact (Nat.min_self t.start).trans hstart
  · change lineAt source t.start = _
    rw [hstart, lineAt_byteSize hsource]
  · intro hnewline
    exact hbody.line ((List.rdropWhile_prefix _ _).subset hnewline)
  · rw [hsource, hbody.text, List.cons_append, List.cons_append, ← List.append_assoc, ← hreturns]
  · intro c hc
    simpa using hall c hc
  · intro m lead hlead
    rw [hbody.kind] at hgiven
    have hbegins : given = m ↔
        lead.toList <+: (Scan.commentElement source given t ts).text.toList := by
      rw [hgiven.lead_iff hlead, hstripped,
        Text.isPrefix_dropEndWhile_iff (Marker.return_not_mem_lead hlead)]
    have hplain : Marker.plain ≠ m := by
      rintro rfl
      cases hlead
    obtain rfl := Option.some.inj hmarker
    rw [← hbegins, ← opensLine_iff hsource, ← hstart]
    by_cases hopens : opensLine source t.start = true
    · simp [hopens]
    · simp [hopens, hplain]

namespace DocBlock

/-! ## Blocks -/

/-- A line of a block with the marker. -/
structure IsMarkedLine (marker : Marker) (l : CommentLine) : Prop where
  marker_eq : l.marker = marker
  carries : ∃ text, CarriesText marker l.raw text
  newline : '\n' ∉ l.raw.toList

/-- The texts of some lines behind their markers. -/
def CarriesTexts (marker : Marker) (lines : List CommentLine) (texts : List String) : Prop :=
  List.Forall₂ (fun l text => CarriesText marker l.raw text) lines texts

/-- Stripping loses no line of a block, and each keeps its place. -/
theorem forall₂_stripped
    {marker : Marker} {lines : List CommentLine} (h : ∀ l ∈ lines, IsMarkedLine marker l) :
    List.Forall₂ (fun l s => s.1 = l.line ∧ CarriesText marker l.raw s.2) lines
      (stripped lines marker) := by
  have hall : lines.takeWhile (·.marker == marker) = lines :=
    List.takeWhile_eq_self_iff.mpr fun l hl => by simpa using (h l hl).marker_eq
  rw [stripped, hall]
  clear hall
  induction lines with
  | nil =>
      exact .nil
  | cons l lines ih =>
      obtain ⟨hl, hlines⟩ := List.forall_mem_cons.mp h
      obtain ⟨text, htext⟩ := hl.carries
      rw [List.filterMap_cons, stripMarker?_eq_some_iff.mpr htext]
      exact .cons ⟨rfl, htext⟩ (ih hlines)

theorem carriesTexts_stripped
    {marker : Marker} {lines : List CommentLine} (h : ∀ l ∈ lines, IsMarkedLine marker l) :
    CarriesTexts marker lines ((stripped lines marker).map Prod.snd) :=
  List.forall₂_map_right_iff.mpr ((forall₂_stripped h).imp fun _ _ hline => hline.2)

end DocBlock

namespace Extract

open DocBlock

theorem isMarkedLine_of_elements
    {source : String} {marker : Marker} {es : List Element}
    (hes : ∀ e ∈ es, e ∈ Element.scan source ∧ e.marker? = some marker)
    (hmarker : marker ≠ .plain) :
    ∀ l ∈ es.filterMap CommentLine.ofElement?, IsMarkedLine marker l := by
  intro l hl
  obtain ⟨e, he, hline⟩ := List.mem_filterMap.mp hl
  obtain ⟨hscan, hmarked⟩ := hes e he
  rw [CommentLine.ofElement?, hmarked, Option.map_some, Option.some.injEq] at hline
  subst hline
  obtain ⟨front, hat⟩ := Element.exists_commentAt hscan hmarked
  have hlead : ∀ lead, marker.lead? = some lead → lead.toList <+: e.text.toList := by
    intro lead hlead
    exact ((hat.marker_iff marker lead hlead).mp rfl).1
  refine ⟨rfl, ?_, hat.newline_not_mem⟩
  cases hstrip : stripMarker? e.text marker with
  | some text => exact ⟨text, stripMarker?_eq_some_iff.mp hstrip⟩
  | none =>
      obtain ⟨lead, hsome⟩ : ∃ lead, marker.lead? = some lead := by
        cases marker with
        | packageDoc | itemDoc => exact ⟨_, rfl⟩
        | plain => exact absurd rfl hmarker
      exact absurd (hlead lead hsome) (stripMarker?_eq_none_iff.mp hstrip lead hsome)

theorem isMarkedLine_leadingRun
    {source : String} {marker : Marker} {es : List Element}
    (hes : ∀ e ∈ es, e ∈ Element.scan source) (hmarker : marker ≠ .plain) :
    ∀ l ∈ leadingRun marker es, IsMarkedLine marker l := by
  have hrun : ∀ e ∈ es.takeWhile (·.marker? == some marker),
      e ∈ Element.scan source ∧ e.marker? = some marker := by
    intro e he
    exact ⟨hes e ((List.takeWhile_prefix _).subset he), by simpa using List.mem_takeWhile_imp he⟩
  exact isMarkedLine_of_elements hrun hmarker

theorem isMarkedLine_packageBlockAt (source : String) (i : Nat) :
    ∀ l ∈ packageBlockAt (Element.scan source) i, IsMarkedLine .packageDoc l :=
  isMarkedLine_leadingRun (fun _ he => List.mem_of_mem_drop he) (by simp)

theorem isMarkedLine_itemBlockAt (source : String) (i : Nat) :
    ∀ l ∈ itemBlockAt (Element.scan source) i, IsMarkedLine .itemDoc l := by
  apply isMarkedLine_of_elements
  · intro e he
    exact ⟨List.mem_of_mem_take ((List.rtakeWhile_suffix _ _).subset he),
      by simpa using List.mem_rtakeWhile_imp he⟩
  · simp

end Extract

end MarkerDoc
