import MarkerDoc.Proofs.DocBlock

/-!
# The grammar of documentation blocks

What a block says is described here by the ways to split its lines, without the recursions that read
it: which lines carry the marker and what stands behind it, what is left of a text when its ends are
trimmed, which line opens the first fence and which one closes it, and which lines of a description
are kept.  Every block is read in exactly one of these ways, and reading it gives the answer that
belongs to the way.
-/

namespace MarkerDoc

namespace Text

/-! ## Trimming -/

section

variable {α : Type} {p : α → Bool} {xs core : List α}

/-- What is left of a list when the longest run with the property is taken off its end. -/
structure TrimmedEnd (p : α → Bool) (xs core : List α) : Prop where
  split : ∃ back, xs = core ++ back ∧ ∀ x ∈ back, p x = true
  last : ∀ x, core.getLast? = some x → p x = false

/-- What is left of a list when the longest runs with the property are taken off both ends. -/
structure Trimmed (p : α → Bool) (xs core : List α) : Prop where
  split : ∃ front back, xs = front ++ (core ++ back) ∧ (∀ x ∈ front, p x = true) ∧
    ∀ x ∈ back, p x = true
  head : ∀ x, core.head? = some x → p x = false
  last : ∀ x, core.getLast? = some x → p x = false

theorem head?_dropWhile
    (p : α → Bool) (xs : List α) {x : α} (h : (xs.dropWhile p).head? = some x) : p x = false := by
  have hnot := List.head?_dropWhile_not p xs
  rw [h] at hnot
  exact hnot

theorem getLast?_dropEndWhile {x : α} (h : (dropEndWhile p xs).getLast? = some x) :
    p x = false := by
  rw [dropEndWhile, List.getLast?_reverse] at h
  exact head?_dropWhile p xs.reverse h

theorem exists_dropEndWhile (p : α → Bool) (xs : List α) :
    ∃ back, xs = dropEndWhile p xs ++ back ∧ ∀ x ∈ back, p x = true :=
  ⟨xs.rtakeWhile p, List.rdropWhile_append_rtakeWhile.symm, fun _ hx => List.mem_rtakeWhile_imp hx⟩

theorem dropEndWhile_append_of_pos
    {back : List α} (hback : ∀ x ∈ back, p x = true)
    (hlast : ∀ x, core.getLast? = some x → p x = false) : dropEndWhile p (core ++ back) = core := by
  rw [dropEndWhile, List.reverse_append, List.dropWhile_append_of_pos (by simpa using hback)]
  exact dropEndWhile_of_getLast? hlast

theorem dropEndWhile_eq_iff : dropEndWhile p xs = core ↔ TrimmedEnd p xs core := by
  constructor
  · rintro rfl
    exact ⟨exists_dropEndWhile p xs, fun _ => getLast?_dropEndWhile⟩
  · rintro ⟨⟨back, rfl, hback⟩, hlast⟩
    exact dropEndWhile_append_of_pos hback hlast

/-- Trimming at the start and then at the end. -/
theorem dropEndWhile_dropWhile_eq_iff :
    dropEndWhile p (xs.dropWhile p) = core ↔ Trimmed p xs core := by
  constructor
  · rintro rfl
    obtain ⟨back, hsplit, hback⟩ := exists_dropEndWhile p (xs.dropWhile p)
    refine ⟨⟨xs.takeWhile p, back, ?_, fun _ => List.mem_takeWhile_imp, hback⟩, ?_,
      fun _ => getLast?_dropEndWhile⟩
    · rw [← hsplit, List.takeWhile_append_dropWhile]
    · intro x hx
      apply head?_dropWhile p xs
      rw [hsplit, List.head?_append, hx, Option.some_or]
  · rintro ⟨⟨front, back, rfl, hfront, hback⟩, hhead, hlast⟩
    rw [List.dropWhile_append_of_pos hfront]
    cases core with
    | nil =>
        rw [List.nil_append, List.dropWhile_eq_nil_iff.mpr hback]
        rfl
    | cons x core =>
        rw [List.cons_append, List.dropWhile_cons_of_neg (by simp [hhead x rfl]),
          ← List.cons_append]
        exact dropEndWhile_append_of_pos hback hlast

/-- Trimming at the end and then at the start. -/
theorem dropWhile_dropEndWhile_eq_iff :
    (dropEndWhile p xs).dropWhile p = core ↔ Trimmed p xs core := by
  -- Both orders are the same list backwards.
  have hreverse : Trimmed p xs core ↔ Trimmed p xs.reverse core.reverse := by
    constructor
    · rintro ⟨⟨front, back, rfl, hfront, hback⟩, hhead, hlast⟩
      exact ⟨⟨back.reverse, front.reverse, by simp, by simpa using hback, by simpa using hfront⟩,
        by simpa using hlast, by simpa using hhead⟩
    · rintro ⟨⟨front, back, hsplit, hfront, hback⟩, hhead, hlast⟩
      refine ⟨⟨back.reverse, front.reverse, ?_, by simpa using hback, by simpa using hfront⟩,
        by simpa using hlast, by simpa using hhead⟩
      rw [← List.reverse_reverse xs, hsplit]
      simp
  rw [hreverse, ← dropEndWhile_dropWhile_eq_iff]
  simp only [dropEndWhile, List.reverse_inj]

end

/-- A text without the blanks at its end. -/
def TrimsEndTo (text trimmed : String) : Prop :=
  TrimmedEnd isBlank text.toList trimmed.toList

/-- A text without the blanks at both ends. -/
def TrimsTo (text trimmed : String) : Prop :=
  Trimmed isBlank text.toList trimmed.toList

theorem trimEnd_eq_iff {text trimmed : String} :
    trimEnd text = trimmed ↔ TrimsEndTo text trimmed := by
  rw [TrimsEndTo, ← dropEndWhile_eq_iff, trimEnd, ← String.toList_inj, String.toList_ofList]

theorem trim_eq_iff {text trimmed : String} : trim text = trimmed ↔ TrimsTo text trimmed := by
  rw [TrimsTo, ← dropWhile_dropEndWhile_eq_iff, trim, trimStart, trimEnd, ← String.toList_inj,
    String.toList_ofList, String.toList_ofList]

theorem trim_trimEnd (text : String) : trim (trimEnd text) = trim text := by
  simp only [trim, trimEnd, String.toList_ofList, dropEndWhile_eq_rdropWhile,
    List.rdropWhile_idempotent]

end Text

namespace DocBlock

open Text

/-! ## The texts behind the markers -/

/-- The text of a line behind its marker, without the one space that may stand between them. -/
def CarriesText (marker : Marker) (raw text : String) : Prop :=
  ∃ lead, marker.lead? = some lead ∧
    (raw = lead ++ (" " ++ text) ∨ raw = lead ++ text ∧ text.toList.head? ≠ some ' ')

theorem stripMarker?_eq_some_iff {raw text : String} {marker : Marker} :
    stripMarker? raw marker = some text ↔ CarriesText marker raw text := by
  have hlead : ∀ {lead s rest : String}, stripStart? lead s = some rest ↔ s = lead ++ rest := by
    intro lead s rest
    rw [stripStart?, Option.map_eq_some_iff]
    constructor
    · rintro ⟨cs, hcs, rfl⟩
      rw [← String.toList_inj, afterLead?_eq_some_iff.mp hcs]
      simp
    · rintro rfl
      exact ⟨rest.toList, afterLead?_eq_some_iff.mpr (by simp), by simp⟩
  have hspace : ∀ rest : String, (stripStart? " " rest).getD rest = text ↔
      rest = " " ++ text ∨ rest = text ∧ text.toList.head? ≠ some ' ' := by
    intro rest
    cases hstrip : stripStart? " " rest with
    | some tail =>
        obtain rfl := hlead.mp hstrip
        simp only [Option.getD_some, String.append_right_inj]
        constructor
        · exact .inl
        · rintro (heq | ⟨rfl, hhead⟩)
          · exact heq
          · simp at hhead
    | none =>
        have hne : ∀ tail, rest ≠ " " ++ tail := by
          intro tail heq
          rw [hlead.mpr heq] at hstrip
          cases hstrip
        simp only [Option.getD_none, hne, false_or]
        constructor
        · rintro rfl
          refine ⟨rfl, ?_⟩
          intro hhead
          obtain ⟨cs, hcs⟩ := List.head?_eq_some_iff.mp hhead
          apply hne (String.ofList cs)
          rw [← String.toList_inj, hcs]
          simp
        · exact And.left
  simp only [stripMarker?, CarriesText, Option.bind_eq_bind, Option.bind_eq_some_iff,
    Option.pure_def, Option.some.injEq]
  constructor
  · rintro ⟨lead, hmarker, rest, hrest, htext⟩
    refine ⟨lead, hmarker, ?_⟩
    rw [hlead.mp hrest]
    rcases (hspace rest).mp htext with rfl | ⟨rfl, hhead⟩
    · exact .inl rfl
    · exact .inr ⟨rfl, hhead⟩
  · rintro ⟨lead, hmarker, rfl | ⟨rfl, hhead⟩⟩
    · exact ⟨lead, hmarker, _, hlead.mpr rfl, (hspace _).mpr (.inl rfl)⟩
    · exact ⟨lead, hmarker, _, hlead.mpr rfl, (hspace _).mpr (.inr ⟨rfl, hhead⟩)⟩

theorem stripMarker?_eq_none_iff {raw : String} {marker : Marker} :
    stripMarker? raw marker = none ↔
      ∀ lead, marker.lead? = some lead → ¬ lead.toList <+: raw.toList := by
  cases hmarker : marker.lead? with
  | none =>
      simp [stripMarker?, hmarker]
  | some lead =>
      simp only [stripMarker?, hmarker, stripStart?, Option.bind_eq_bind, Option.bind_some,
        Option.pure_def, Option.bind_eq_none_iff, Option.some.injEq, forall_eq',
        ← isSome_afterLead?_iff]
      cases afterLead? lead.toList raw.toList with
      | none => simp
      | some rest => simp

/-- The texts of some lines with their places; a line that does not begin with the characters of
the marker contributes nothing. -/
inductive Texts (marker : Marker) : List CommentLine → List Line → Prop
  | nil : Texts marker [] []
  | text {l : CommentLine} {lines : List CommentLine} {text : String} {texts : List Line}
      (h : CarriesText marker l.raw text) (hrest : Texts marker lines texts) :
      Texts marker (l :: lines) ((l.line, text) :: texts)
  | bare {l : CommentLine} {lines : List CommentLine} {texts : List Line}
      (h : ∀ lead, marker.lead? = some lead → ¬ lead.toList <+: l.raw.toList)
      (hrest : Texts marker lines texts) : Texts marker (l :: lines) texts

theorem texts_iff {marker : Marker} {lines : List CommentLine} {texts : List Line} :
    Texts marker lines texts ↔
      lines.filterMap (fun l => (stripMarker? l.raw marker).map fun text => (l.line, text)) =
        texts := by
  constructor
  · intro h
    induction h with
    | nil =>
        rfl
    | text h _ ih =>
        rw [List.filterMap_cons, stripMarker?_eq_some_iff.mpr h, ih]
        rfl
    | bare h _ ih =>
        rw [List.filterMap_cons, stripMarker?_eq_none_iff.mpr h, ih]
        rfl
  · rintro rfl
    induction lines with
    | nil =>
        exact .nil
    | cons l lines ih =>
        rw [List.filterMap_cons]
        cases hstrip : stripMarker? l.raw marker with
        | some text =>
            exact .text (stripMarker?_eq_some_iff.mp hstrip) ih
        | none =>
            exact .bare (stripMarker?_eq_none_iff.mp hstrip) ih

/-- The texts of the longest front of the lines that carries the marker. -/
structure FrontTexts (marker : Marker) (lines : List CommentLine) (texts : List Line) : Prop where
  split : ∃ front back, lines = front ++ back ∧ (∀ l ∈ front, l.marker = marker) ∧
    (∀ l, back.head? = some l → l.marker ≠ marker) ∧ Texts marker front texts

theorem stripped_eq_iff {marker : Marker} {lines : List CommentLine} {texts : List Line} :
    stripped lines marker = texts ↔ FrontTexts marker lines texts := by
  rw [stripped, ← texts_iff]
  constructor
  · intro htexts
    refine ⟨_, _, List.takeWhile_append_dropWhile.symm, ?_, ?_, htexts⟩
    · intro l hl
      simpa using List.mem_takeWhile_imp hl
    · intro l hl
      simpa using head?_dropWhile _ lines hl
  · rintro ⟨front, back, rfl, hfront, hback, htexts⟩
    have hstop : back.takeWhile (fun l => l.marker == marker) = [] := by
      cases back with
      | nil =>
          rfl
      | cons l back =>
          exact List.takeWhile_cons_of_neg (by simpa using hback l rfl)
    rwa [List.takeWhile_append_of_pos (by simpa using hfront), hstop, List.append_nil]

/-! ## Fences -/

/-- A fence, with or without the name of a language behind it. -/
def OpensFence (text : String) : Prop :=
  ∃ tag, TrimsEndTo text (fence ++ tag) ∧
    ∀ c ∈ tag.toList, isAlphanumeric c = true ∨ c ∈ "-_+.".toList

theorem isOpeningFence_iff {text : String} : isOpeningFence text = true ↔ OpensFence text := by
  unfold isOpeningFence OpensFence
  constructor
  · intro h
    split at h
    · next tag hstrip =>
        refine ⟨tag, trimEnd_eq_iff.mp ?_, by simpa using h⟩
        obtain ⟨cs, hcs, rfl⟩ := Option.map_eq_some_iff.mp hstrip
        rw [← String.toList_inj, afterLead?_eq_some_iff.mp hcs]
        simp
    · cases h
  · rintro ⟨tag, htrim, htag⟩
    rw [trimEnd_eq_iff.mpr htrim, stripStart?_append]
    simpa using htag

theorem isClosingFence_iff {text : String} :
    isClosingFence text = true ↔ TrimsEndTo text fence := by
  rw [isClosingFence, beq_iff_eq, trimEnd_eq_iff]

/-- The lines of a description joined, without the blank lines at either end. -/
def Describes (lines : List Line) (description : String) : Prop :=
  ∃ kept, Trimmed isBlankText (lines.map Prod.snd) kept ∧ description = "\n".intercalate kept

theorem describes_iff {lines : List Line} {description : String} :
    Describes lines description ↔ joinDescription (lines.map Prod.snd) = description := by
  rw [joinDescription, joinWith_eq_intercalate]
  constructor
  · rintro ⟨kept, hkept, rfl⟩
    rw [dropEndWhile_dropWhile_eq_iff.mpr hkept]
  · rintro rfl
    exact ⟨_, dropEndWhile_dropWhile_eq_iff.mp rfl, rfl⟩

/-- What lines without a directive say, by where the first fence opens and where it is closed. -/
inductive Fenced : List Line → Except Malformed DocBlock → Prop
  | unfenced {lines : List Line} {description : String} (hlines : ∀ l ∈ lines, ¬ OpensFence l.2)
      (hdescription : Describes lines description) :
      Fenced lines (.ok (.documented description none))
  | closed {before body after : List Line} {opening closing : Line} {description : String}
      (hbefore : ∀ l ∈ before, ¬ OpensFence l.2) (hopening : OpensFence opening.2)
      (hbody : ∀ l ∈ body, ¬ TrimsEndTo l.2 fence) (hclosing : TrimsEndTo closing.2 fence)
      (hdescription : Describes (before ++ after) description) :
      Fenced (before ++ opening :: (body ++ closing :: after))
        (.ok (.documented description (some ("\n".intercalate (body.map Prod.snd)))))
  | unclosed {before body : List Line} {opening : Line}
      (hbefore : ∀ l ∈ before, ¬ OpensFence l.2) (hopening : OpensFence opening.2)
      (hbody : ∀ l ∈ body, ¬ TrimsEndTo l.2 fence) :
      Fenced (before ++ opening :: body) (.error ⟨opening.1, .unterminatedFence⟩)

theorem Fenced.ofLines_eq
    {lines : List Line} {result : Except Malformed DocBlock} (h : Fenced lines result) :
    ofLines lines = result := by
  have hnotOpen : ∀ {lines : List Line}, (∀ l ∈ lines, ¬ OpensFence l.2) →
      ∀ l ∈ lines, isOpeningFence l.2 = false := by
    intro lines hlines l hl
    simpa [← isOpeningFence_iff] using hlines l hl
  have hnotClose : ∀ {lines : List Line}, (∀ l ∈ lines, ¬ TrimsEndTo l.2 fence) →
      ∀ l ∈ lines, isClosingFence l.2 = false := by
    intro lines hlines l hl
    simpa [← isClosingFence_iff] using hlines l hl
  cases h with
  | unfenced hlines hdescription =>
      rw [ofLines_unfenced (hnotOpen hlines), describes_iff.mp hdescription]
  | closed hbefore hopening hbody hclosing hdescription =>
      rw [ofLines_closed (hnotOpen hbefore) (isOpeningFence_iff.mpr hopening) (hnotClose hbody)
        (isClosingFence_iff.mpr hclosing), describes_iff.mp hdescription, joinWith_eq_intercalate]
  | unclosed hbefore hopening hbody =>
      rw [ofLines_unclosed (hnotOpen hbefore) (isOpeningFence_iff.mpr hopening) (hnotClose hbody)]

/-- Either no line has the property, or there is a first one. -/
theorem forall_or_exists_first (q : Line → Prop) (lines : List Line) :
    (∀ l ∈ lines, ¬ q l) ∨
      ∃ before l after, lines = before ++ l :: after ∧ (∀ m ∈ before, ¬ q m) ∧ q l := by
  induction lines with
  | nil =>
      exact .inl (by simp)
  | cons l lines ih =>
      by_cases hl : q l
      · exact .inr ⟨[], l, lines, rfl, by simp, hl⟩
      · rcases ih with hnone | ⟨before, m, after, rfl, hbefore, hm⟩
        · exact .inl (List.forall_mem_cons.mpr ⟨hl, hnone⟩)
        · exact .inr ⟨l :: before, m, after, rfl, List.forall_mem_cons.mpr ⟨hl, hbefore⟩, hm⟩

theorem exists_fenced (lines : List Line) : ∃ result, Fenced lines result := by
  rcases forall_or_exists_first (fun l => OpensFence l.2) lines with
    hnone | ⟨before, opening, inside, rfl, hbefore, hopening⟩
  · exact ⟨_, .unfenced hnone (describes_iff.mpr rfl)⟩
  · rcases forall_or_exists_first (fun l => TrimsEndTo l.2 fence) inside with
      hnone | ⟨body, closing, after, rfl, hbody, hclosing⟩
    · exact ⟨_, .unclosed hbefore hopening hnone⟩
    · exact ⟨_, .closed hbefore hopening hbody hclosing (describes_iff.mpr rfl)⟩

/-! ## Blocks -/

/-- A text that looks like a directive, known or not. -/
def LooksLikeDirective (text : String) : Prop :=
  ∃ trimmed, TrimsTo text trimmed ∧ directiveLead.toList <+: trimmed.toList

/-- What a run of comment lines says. -/
inductive Gives (marker : Marker) (lines : List CommentLine) : Except Malformed DocBlock → Prop
  | empty (htexts : FrontTexts marker lines []) : Gives marker lines (.ok (.documented "" none))
  | ignored {first : Line} {rest : List Line} (htexts : FrontTexts marker lines (first :: rest))
      (hignore : TrimsEndTo first.2 ignoreDirective) : Gives marker lines (.ok .ignored)
  | unknown {first : Line} {rest : List Line} {trimmed : String}
      (htexts : FrontTexts marker lines (first :: rest))
      (hignore : ¬ TrimsEndTo first.2 ignoreDirective) (htrimmed : TrimsTo first.2 trimmed)
      (hlead : directiveLead.toList <+: trimmed.toList) :
      Gives marker lines (.error ⟨first.1, .unknownDirective trimmed⟩)
  | fenced {first : Line} {rest : List Line} {result : Except Malformed DocBlock}
      (htexts : FrontTexts marker lines (first :: rest))
      (hignore : ¬ TrimsEndTo first.2 ignoreDirective)
      (hdirective : ¬ LooksLikeDirective first.2) (hfenced : Fenced (first :: rest) result) :
      Gives marker lines result

theorem startsWith_trimStart_trimEnd_iff {text : String} :
    startsWith directiveLead (trimStart (trimEnd text)) = true ↔ LooksLikeDirective text := by
  rw [startsWith_iff]
  constructor
  · intro hlead
    exact ⟨_, trim_eq_iff.mp rfl, hlead⟩
  · rintro ⟨trimmed, htrimmed, hlead⟩
    rw [← trim_eq_iff.mpr htrimmed] at hlead
    exact hlead

theorem Gives.classify_eq
    {marker : Marker} {lines : List CommentLine} {result : Except Malformed DocBlock}
    (h : Gives marker lines result) : classify lines marker = result := by
  unfold classify
  cases h with
  | empty htexts =>
      rw [stripped_eq_iff.mpr htexts]
  | ignored htexts hignore =>
      rw [stripped_eq_iff.mpr htexts]
      simp only [trimEnd_eq_iff.mpr hignore, if_true]
  | unknown htexts hignore htrimmed hlead =>
      rw [stripped_eq_iff.mpr htexts]
      have hdirective := startsWith_trimStart_trimEnd_iff.mpr ⟨_, htrimmed, hlead⟩
      simp only [trimEnd_eq_iff, hignore, if_false, hdirective, if_true, trim_trimEnd,
        trim_eq_iff.mpr htrimmed]
  | fenced htexts hignore hdirective hfenced =>
      rw [stripped_eq_iff.mpr htexts]
      simp only [trimEnd_eq_iff, hignore, if_false, startsWith_trimStart_trimEnd_iff, hdirective]
      exact hfenced.ofLines_eq

theorem exists_gives (marker : Marker) (lines : List CommentLine) :
    ∃ result, Gives marker lines result := by
  cases htexts : stripped lines marker with
  | nil =>
      exact ⟨_, .empty (stripped_eq_iff.mp htexts)⟩
  | cons first rest =>
      have hfront := stripped_eq_iff.mp htexts
      by_cases hignore : TrimsEndTo first.2 ignoreDirective
      · exact ⟨_, .ignored hfront hignore⟩
      · by_cases hdirective : LooksLikeDirective first.2
        · obtain ⟨trimmed, htrimmed, hlead⟩ := hdirective
          exact ⟨_, .unknown hfront hignore htrimmed hlead⟩
        · obtain ⟨result, hfenced⟩ := exists_fenced (first :: rest)
          exact ⟨result, .fenced hfront hignore hdirective hfenced⟩

/-- Reading a run of comment lines gives exactly the answer of the grammar. -/
theorem classify_eq_iff_gives
    (lines : List CommentLine) (expected : Marker) (result : Except Malformed DocBlock) :
    classify lines expected = result ↔ Gives expected lines result := by
  constructor
  · rintro rfl
    obtain ⟨result, hgives⟩ := exists_gives expected lines
    rw [hgives.classify_eq]
    exact hgives
  · exact Gives.classify_eq

end DocBlock

end MarkerDoc
