import MarkerDoc.Proofs.FenceGrammar

/-!
# The lines of a block

A block is read line by line, and what is recorded of it are two texts.  The lines of these texts
are compared here with the lines of the block.  Up to blank lines, the lines outside the first
fenced region are those of the description, and the lines inside it are those of the test.

Behind the first region the lines are no longer looked at, fences included.  So the description can
be left with a fence that nothing closes, and the lines behind the first region decide whether it
is.
-/

namespace MarkerDoc

namespace Text

/-! ## Lines of a text -/

def lines (s : String) : List String :=
  splitOn "\n" s

/-- The lines that are not blank. -/
def written (ls : List String) : List String :=
  ls.filter fun l => !isBlankText l

theorem lines_eq (s : String) : lines s = (s.toList.splitOn '\n').map String.ofList :=
  splitOn_singleton '\n' s

theorem lines_append (s t : String) : lines (s ++ "\n" ++ t) = lines s ++ lines t := by
  simp only [lines_eq, String.toList_append]
  rw [show "\n".toList = ['\n'] from rfl, List.append_assoc, List.singleton_append,
    List.splitOn_append_cons_self, List.map_append]

theorem lines_of_not_mem {s : String} (h : '\n' ∉ s.toList) : lines s = [s] := by
  have hsplit : (['\n'].intercalate [s.toList]).splitOn '\n' = [s.toList] :=
    List.splitOn_intercalate '\n' (by simpa using h) (by simp)
  rw [lines_eq]
  simpa using congrArg (List.map String.ofList) hsplit

theorem flatMap_lines {pieces : List String} (h : ∀ p ∈ pieces, '\n' ∉ p.toList) :
    pieces.flatMap lines = pieces := by
  induction pieces with
  | nil =>
      rfl
  | cons p pieces ih =>
      obtain ⟨hp, hpieces⟩ := List.forall_mem_cons.mp h
      rw [List.flatMap_cons, lines_of_not_mem hp, ih hpieces, List.singleton_append]

/-- The lines of pieces that are joined by line breaks are the lines of the pieces. -/
theorem lines_joinWith {pieces : List String} (h : pieces ≠ []) :
    lines (joinWith "\n" pieces) = pieces.flatMap lines := by
  fun_induction joinWith "\n" pieces with
  | case1 => exact absurd rfl h
  | case2 s => simp
  | case3 s t rest ih =>
      rw [lines_append, ih (List.cons_ne_nil t rest)]
      rfl

theorem joinWith_lines (s : String) : joinWith "\n" (lines s) = s := by
  rw [← String.toList_inj, joinWith_eq_intercalate, String.toList_intercalate, lines_eq,
    List.map_map, show "\n".toList = ['\n'] from rfl]
  simp [Function.comp_def]

theorem written_append (ls ms : List String) : written (ls ++ ms) = written ls ++ written ms :=
  List.filter_append ..

theorem written_eq_nil {ls : List String} (h : ∀ l ∈ ls, isBlankText l = true) :
    written ls = [] := by
  simpa [written] using h

theorem written_lines_joinWith (pieces : List String) :
    written (lines (joinWith "\n" pieces)) = written (pieces.flatMap lines) := by
  cases pieces with
  | nil => decide
  | cons p pieces => rw [lines_joinWith (List.cons_ne_nil p pieces)]

theorem isBlankText_of_mem_lines
    {s l : String} (hs : isBlankText s = true) (hl : l ∈ lines s) : isBlankText l = true := by
  rw [isBlankText, List.all_eq_true] at hs ⊢
  intro c hc
  apply hs c
  rw [← joinWith_lines s]
  exact mem_joinWith_of_mem hl hc

end Text

namespace DocBlock

open Text

/-! ## The texts of a block -/

theorem CarriesText.isSuffix
    {marker : Marker} {raw text : String} (h : CarriesText marker raw text) :
    text.toList <:+ raw.toList := by
  obtain ⟨lead, -, rfl | ⟨rfl, -⟩⟩ := h
  · rw [String.toList_append, String.toList_append, ← List.append_assoc]
    exact List.suffix_append _ _
  · rw [String.toList_append]
    exact List.suffix_append _ _

theorem newline_not_mem_stripped
    {marker : Marker} {lines : List CommentLine} (h : ∀ l ∈ lines, '\n' ∉ l.raw.toList) :
    ∀ text ∈ (stripped lines marker).map Prod.snd, '\n' ∉ text.toList := by
  intro text htext hmem
  obtain ⟨⟨n, text⟩, hline, rfl⟩ := List.mem_map.mp htext
  obtain ⟨l, hl, hstrip⟩ := List.mem_filterMap.mp hline
  obtain ⟨text, hstrip, ⟨⟩⟩ := Option.map_eq_some_iff.mp hstrip
  apply h l ((List.takeWhile_prefix _).subset hl)
  exact (stripMarker?_eq_some_iff.mp hstrip).isSuffix.subset hmem

/-! ## The description and the test -/

/-- Blank lines at the ends of a description are dropped, and nothing else is. -/
theorem written_lines_joinDescription (texts : List String) :
    written (lines (joinDescription texts)) = written (texts.flatMap lines) := by
  obtain ⟨⟨front, back, hsplit, hfront, hback⟩, -, -⟩ :=
    (@dropEndWhile_dropWhile_eq_iff _ isBlankText texts _).mp rfl
  have hblank : ∀ ts : List String, (∀ t ∈ ts, isBlankText t = true) →
      written (ts.flatMap lines) = [] := by
    intro ts hts
    apply written_eq_nil
    intro l hl
    obtain ⟨t, ht, hl⟩ := List.mem_flatMap.mp hl
    exact isBlankText_of_mem_lines (hts t ht) hl
  rw [joinDescription, written_lines_joinWith]
  conv_rhs => rw [hsplit]
  simp only [List.flatMap_append, written_append, hblank front hfront, hblank back hback,
    List.nil_append, List.append_nil]

/-- The lines of a block in front of its first fenced region, inside it and behind it.  A block
without a fence is all in front. -/
inductive Regions : List String → List String → List String → List String → Prop
  | unfenced {texts : List String} (htexts : ∀ t ∈ texts, ¬ OpensFence t) :
      Regions texts texts [] []
  | fenced {before body after : List String} {opening closing : String}
      (hbefore : ∀ t ∈ before, ¬ OpensFence t) (hopening : OpensFence opening)
      (hbody : ∀ t ∈ body, ¬ TrimsEndTo t fence) (hclosing : TrimsEndTo closing fence) :
      Regions (before ++ opening :: (body ++ closing :: after)) before body after

theorem Regions.not_opensFence
    {texts before body after : List String} (h : Regions texts before body after) :
    ∀ t ∈ before, ¬ OpensFence t := by
  cases h with
  | unfenced htexts => exact htexts
  | fenced hbefore => exact hbefore

theorem Regions.mem
    {texts before body after : List String} (h : Regions texts before body after) {t : String}
    (ht : t ∈ before ∨ t ∈ body ∨ t ∈ after) : t ∈ texts := by
  cases h with
  | unfenced => simpa using ht
  | fenced =>
      simp only [List.mem_append, List.mem_cons]
      tauto

/-- What is recorded of a block: the joined lines outside its first fenced region, and the joined
lines inside it if there is one. -/
structure Records (texts : List String) (description : String) (test : Option String)
    (before body after : List String) : Prop where
  regions : Regions texts before body after
  description : description = joinDescription (before ++ after)
  test : test = none ∧ body = [] ∧ after = [] ∨ test = some (joinWith "\n" body)

theorem Fenced.exists_records
    {lines : List Line} {description : String} {test : Option String}
    (h : Fenced lines (.ok (.documented description test))) :
    ∃ before body after, Records (lines.map Prod.snd) description test before body after := by
  cases h with
  | unfenced hlines hdescription =>
      refine ⟨_, _, _, .unfenced (List.forall_mem_map.mpr hlines), ?_, .inl ⟨rfl, rfl, rfl⟩⟩
      rw [List.append_nil, describes_iff.mp hdescription]
  | @closed before body after opening closing _ hbefore hopening hbody hclosing hdescription =>
      refine ⟨before.map Prod.snd, body.map Prod.snd, after.map Prod.snd, ?_, ?_, .inr ?_⟩
      · simp only [List.map_append, List.map_cons]
        exact .fenced (List.forall_mem_map.mpr hbefore) hopening (List.forall_mem_map.mpr hbody)
          hclosing
      · rw [← List.map_append, describes_iff.mp hdescription]
      · rw [joinWith_eq_intercalate]

/-- A block that is accepted and not ignored is recorded by its regions. -/
theorem exists_records
    {lines : List CommentLine} {marker : Marker} {description : String} {test : Option String}
    (h : classify lines marker = .ok (.documented description test)) :
    ∃ before body after,
      Records ((stripped lines marker).map Prod.snd) description test before body after := by
  obtain ⟨result, hgives⟩ := exists_gives marker lines
  rw [hgives.classify_eq] at h
  subst h
  cases hgives with
  | empty htexts =>
      rw [stripped_eq_iff.mpr htexts]
      exact ⟨[], [], [], .unfenced (by simp), rfl, .inl ⟨rfl, rfl, rfl⟩⟩
  | fenced htexts hignore hdirective hfenced =>
      rw [stripped_eq_iff.mpr htexts]
      exact hfenced.exists_records

section

variable {texts before body after : List String} {description : String} {test : Option String}

theorem Records.written_description (h : Records texts description test before body after) :
    written (lines description) = written ((before ++ after).flatMap lines) := by
  rw [h.description, written_lines_joinDescription]

theorem Records.written_test (h : Records texts description test before body after) :
    written (test.elim [] lines) = written (body.flatMap lines) := by
  rcases h.test with ⟨rfl, rfl, -⟩ | rfl
  · rfl
  · exact written_lines_joinWith body

end

/-! ## Reading fences -/

/-- Whether a region is open behind a line: outside a region a fence opens one, and inside a bare
fence closes it. -/
def openBehind (inside : Bool) (text : String) : Bool :=
  if inside then !isClosingFence text else isOpeningFence text

def leavesOpen (texts : List String) : Bool :=
  texts.foldl openBehind false

theorem openBehind_of_isBlankText {text : String} (h : isBlankText text = true) (inside : Bool) :
    openBehind inside text = inside := by
  have htrim : trimEnd text = "" := by
    rw [isBlankText, List.all_eq_true] at h
    rw [trimEnd, dropEndWhile, List.dropWhile_eq_nil_iff.mpr (by simpa using h)]
    rfl
  have hclosing : isClosingFence text = false := by
    rw [isClosingFence, htrim]
    decide
  have hopening : isOpeningFence text = false := by
    rw [isOpeningFence, htrim]
    decide
  cases inside <;> simp [openBehind, hclosing, hopening]

/-- Blank lines make no difference to fences. -/
theorem foldl_openBehind_written (inside : Bool) (texts : List String) :
    (written texts).foldl openBehind inside = texts.foldl openBehind inside := by
  induction texts generalizing inside with
  | nil =>
      rfl
  | cons t texts ih =>
      rw [List.foldl_cons, ← ih]
      cases ht : isBlankText t with
      | true =>
          rw [openBehind_of_isBlankText ht, written, List.filter_cons_of_neg (by simp [ht])]
          rfl
      | false =>
          rw [written, List.filter_cons_of_pos (by simp [ht])]
          rfl

theorem leavesOpen_eq_of_written {texts texts' : List String} (h : written texts = written texts') :
    leavesOpen texts = leavesOpen texts' := by
  rw [leavesOpen, leavesOpen, ← foldl_openBehind_written, h, foldl_openBehind_written]

theorem leavesOpen_append_of_not_opens
    {before : List String} (hbefore : ∀ t ∈ before, ¬ OpensFence t) (after : List String) :
    leavesOpen (before ++ after) = leavesOpen after := by
  induction before with
  | nil =>
      rfl
  | cons t before ih =>
      obtain ⟨ht, hbefore⟩ := List.forall_mem_cons.mp hbefore
      rw [← isOpeningFence_iff, Bool.not_eq_true] at ht
      rw [← ih hbefore, leavesOpen, List.cons_append, List.foldl_cons, openBehind, ht]
      rfl

theorem foldl_openBehind_of_not_closes
    {rest : List String} (hrest : ∀ t ∈ rest, ¬ TrimsEndTo t fence) :
    rest.foldl openBehind true = true := by
  induction rest with
  | nil =>
      rfl
  | cons t rest ih =>
      obtain ⟨ht, hrest⟩ := List.forall_mem_cons.mp hrest
      rw [← isClosingFence_iff, Bool.not_eq_true] at ht
      rw [List.foldl_cons, openBehind, ht]
      exact ih hrest

/-- A fence that opens a region and is not closed behind. -/
def HasOpenFence (texts : List String) : Prop :=
  ∃ closed opening rest, texts = closed ++ opening :: rest ∧ leavesOpen closed = false ∧
    OpensFence opening ∧ ∀ t ∈ rest, ¬ TrimsEndTo t fence

theorem leavesOpen_iff (texts : List String) : leavesOpen texts = true ↔ HasOpenFence texts := by
  constructor
  · intro h
    -- The last line either opens the region or leaves one open that was open before it.
    induction texts using List.reverseRecOn with
    | nil => cases h
    | append_singleton texts t ih =>
        have hlast : leavesOpen (texts ++ [t]) = openBehind (leavesOpen texts) t := by
          rw [leavesOpen, List.foldl_append]
          rfl
        rw [hlast] at h
        cases hbefore : leavesOpen texts with
        | false =>
            rw [hbefore, openBehind, if_neg Bool.false_ne_true] at h
            exact ⟨texts, t, [], rfl, hbefore, isOpeningFence_iff.mp h, by simp⟩
        | true =>
            obtain ⟨closed, opening, rest, rfl, hclosed, hopening, hrest⟩ := ih hbefore
            rw [hbefore] at h
            refine ⟨closed, opening, rest ++ [t], by simp, hclosed, hopening, ?_⟩
            have ht : ¬ TrimsEndTo t fence := by
              rw [← isClosingFence_iff]
              simpa [openBehind] using h
            simpa [or_imp, forall_and] using ⟨hrest, ht⟩
  · rintro ⟨closed, opening, rest, rfl, hclosed, hopening, hrest⟩
    rw [leavesOpen] at hclosed
    rw [leavesOpen, List.foldl_append, hclosed, List.foldl_cons, openBehind,
      isOpeningFence_iff.mpr hopening]
    exact foldl_openBehind_of_not_closes hrest

/-! ## Blocks and their fences -/

/-- The first fence of a block, at the given place, is never closed. -/
def FirstFenceOpen (texts : List Line) (line : Nat) : Prop :=
  ∃ before opening rest, texts = before ++ (line, opening) :: rest ∧
    (∀ l ∈ before, ¬ OpensFence l.2) ∧ OpensFence opening ∧ ∀ l ∈ rest, ¬ TrimsEndTo l.2 fence

/-- The first line of a block may be a directive, known or not. -/
def BeginsWithDirective (texts : List Line) : Prop :=
  ∃ first, texts.head? = some first ∧ LooksLikeDirective first.2

theorem not_trimsEndTo_of_not_looksLikeDirective
    {text : String} (h : ¬ LooksLikeDirective text) : ¬ TrimsEndTo text ignoreDirective := by
  intro hignore
  apply h
  rw [← startsWith_trimStart_trimEnd_iff, trimEnd_eq_iff.mpr hignore]
  exact startsWith_ignoreDirective

theorem classify_eq_unterminatedFence_iff
    {lines : List CommentLine} {marker : Marker} {line : Nat} :
    classify lines marker = .error ⟨line, .unterminatedFence⟩ ↔
      FirstFenceOpen (stripped lines marker) line ∧
        ¬ BeginsWithDirective (stripped lines marker) := by
  constructor
  · intro h
    obtain ⟨result, hgives⟩ := exists_gives marker lines
    rw [hgives.classify_eq] at h
    subst h
    cases hgives with
    | @fenced first rest _ htexts hignore hdirective hfenced =>
        rw [stripped_eq_iff.mpr htexts]
        constructor
        · generalize first :: rest = texts at hfenced
          cases hfenced with
          | @unclosed before body opening hbefore hopening hbody =>
              exact ⟨before, opening.2, body, rfl, hbefore, hopening, hbody⟩
        · rintro ⟨l, ⟨⟩, hl⟩
          exact hdirective hl
  · rintro ⟨⟨before, opening, rest, htexts, hbefore, hopening, hrest⟩, hdirective⟩
    have hfenced : Fenced (stripped lines marker) (.error ⟨line, .unterminatedFence⟩) := by
      rw [htexts]
      exact .unclosed hbefore hopening hrest
    cases hstripped : stripped lines marker with
    | nil => simp [htexts] at hstripped
    | cons first others =>
        rw [hstripped] at hfenced hdirective
        have hfirst : ¬ LooksLikeDirective first.2 := fun hlooks => hdirective ⟨first, rfl, hlooks⟩
        exact (Gives.fenced (stripped_eq_iff.mp hstripped)
          (not_trimsEndTo_of_not_looksLikeDirective hfirst) hfirst hfenced).classify_eq

/-- The fences of a block.  In a block that is accepted the first fence is closed, and reading the
description leaves a fence open exactly when the lines behind the first region have a fence that
nothing closes.  The block is rejected for a fence exactly when the first one is never closed. -/
theorem classify_leaves_fence_open_iff (lines : List CommentLine) (marker : Marker) :
    (∀ description test, classify lines marker = .ok (.documented description test) →
      ∃ before body after,
        Records ((stripped lines marker).map Prod.snd) description test before body after ∧
        leavesOpen (Text.lines description) = leavesOpen ((before ++ after).flatMap Text.lines) ∧
        ((∀ l ∈ lines, '\n' ∉ l.raw.toList) →
          (leavesOpen (Text.lines description) = true ↔ HasOpenFence after))) ∧
    ∀ line, classify lines marker = .error ⟨line, .unterminatedFence⟩ ↔
      FirstFenceOpen (stripped lines marker) line ∧
        ¬ BeginsWithDirective (stripped lines marker) := by
  refine ⟨?_, fun line => classify_eq_unterminatedFence_iff⟩
  intro description test h
  obtain ⟨before, body, after, hrecords⟩ := exists_records h
  have hopen := leavesOpen_eq_of_written hrecords.written_description
  refine ⟨before, body, after, hrecords, hopen, ?_⟩
  intro hlines
  have hnewline : ∀ t ∈ before ++ after, '\n' ∉ t.toList := by
    intro t ht
    apply newline_not_mem_stripped hlines t
    rcases List.mem_append.mp ht with ht | ht
    · exact hrecords.regions.mem (.inl ht)
    · exact hrecords.regions.mem (.inr (.inr ht))
  rw [hopen, flatMap_lines hnewline, leavesOpen_append_of_not_opens hrecords.regions.not_opensFence,
    leavesOpen_iff]

/-- A second region that is closed stays in the description with its fences. -/
theorem classify_leaves_fence_open_second_closed :
    let lines : List CommentLine :=
      [⟨.itemDoc, "### ```", 1⟩, ⟨.itemDoc, "### ok(1);", 2⟩, ⟨.itemDoc, "### ```", 3⟩,
        ⟨.itemDoc, "### ```perl", 4⟩, ⟨.itemDoc, "### later();", 5⟩, ⟨.itemDoc, "### ```", 6⟩]
    classify lines .itemDoc = .ok (.documented "```perl\nlater();\n```" (some "ok(1);")) ∧
      (∀ l ∈ lines, '\n' ∉ l.raw.toList) ∧
      ∃ before body after,
        Records ((stripped lines .itemDoc).map Prod.snd) "```perl\nlater();\n```" (some "ok(1);")
          before body after ∧ ¬ HasOpenFence after := by
  intro lines
  have hclassify : classify lines .itemDoc =
      .ok (.documented "```perl\nlater();\n```" (some "ok(1);")) := by
    decide +kernel
  have hlines : ∀ l ∈ lines, '\n' ∉ l.raw.toList := by
    simp [lines]
  obtain ⟨before, body, after, hrecords, -, hiff⟩ :=
    (classify_leaves_fence_open_iff lines .itemDoc).1 _ _ hclassify
  refine ⟨hclassify, hlines, before, body, after, hrecords, ?_⟩
  rw [← hiff hlines]
  decide +kernel

/-- A second fence that nothing closes is accepted, and the description ends inside it. -/
theorem classify_accepts_open_fence :
    let lines : List CommentLine :=
      [⟨.itemDoc, "### ```", 1⟩, ⟨.itemDoc, "### ok(1);", 2⟩, ⟨.itemDoc, "### ```", 3⟩,
        ⟨.itemDoc, "### ```perl", 4⟩, ⟨.itemDoc, "### later();", 5⟩]
    classify lines .itemDoc = .ok (.documented "```perl\nlater();" (some "ok(1);")) ∧
      leavesOpen (Text.lines "```perl\nlater();") = true := by
  decide +kernel

end DocBlock

end MarkerDoc
