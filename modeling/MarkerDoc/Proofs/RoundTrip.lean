import MarkerDoc.Proofs.Extract
import MarkerDoc.Proofs.Outline

/-!
# Documentation survives being written down

An outline that is laid out as source text and extracted again gives back what it says: the name of
its package, its descriptions, its examples and its routines in order, with the lines on which they
stand.  The lines of the documentation may hold any text; what is asked of them is what the layout
cannot do without, namely that a line is a line, that a block does not begin like a directive, and
that only the fences around an example are read as fences.
-/

namespace MarkerDoc

namespace Outline

/-! ## What an outline says -/

/-- An identifier: a letter or an underscore, then letters, digits and underscores. -/
def IsIdentifier (s : String) : Prop :=
  ∃ c cs, s.toList = c :: cs ∧ Lexeme.isWordStart c = true ∧
    ∀ d ∈ cs, Lexeme.isWordChar d = true

/-- A text that can stand on one line of documentation. -/
def IsLine (s : String) : Prop :=
  '\n' ∉ s.toList ∧ s.toList.getLast? ≠ some '\r'

/-- A line that looks like a directive. -/
def IsDirective (s : String) : Prop :=
  Text.startsWith DocBlock.directiveLead (Text.trimStart s) = true

instance (s : String) : Decidable (IsLine s) :=
  inferInstanceAs (Decidable (_ ∧ _))

instance (s : String) : Decidable (IsDirective s) :=
  inferInstanceAs (Decidable (_ = _))

/-- What the layout asks of a description that stands in front of an example, if there is one. -/
structure Readable (description : List String) : Prop where
  line : ∀ l ∈ description, IsLine l
  first : ∀ l, description.head? = some l → ¬ IsDirective l
  unfenced : ∀ l ∈ description, DocBlock.isOpeningFence l = false

structure Routine.WellFormed (r : Routine) : Prop where
  identifier : IsIdentifier r.name
  notPrivate : r.name.toList.head? ≠ some '_'
  notKeyword : r.name ∉ ["package", "sub", "use"]
  description : Readable r.description
  test : ∀ e, r.example? = some e →
    ∀ l ∈ e.test, IsLine l ∧ DocBlock.isClosingFence l = false
  after : ∀ e, r.example? = some e → ∀ l ∈ e.after, IsLine l

structure WellFormed (o : Outline) : Prop where
  named : o.segments ≠ []
  identifiers : ∀ s ∈ o.segments, IsIdentifier s
  notKeyword : o.packageName ∉ ["package", "sub", "use"]
  description : Readable o.description
  routines : ∀ r ∈ o.routines, r.WellFormed

/-- The text of a description: its lines joined, without the blank lines at either end. -/
def paragraph (lines : List String) : String :=
  "\n".intercalate ((lines.dropWhile Text.isBlankText).rdropWhile Text.isBlankText)

/-- The item of a routine whose documentation begins on a line. -/
def Routine.item (line : Nat) (r : Routine) : Item :=
  { kind := .routine (r.example?.map fun e => "\n".intercalate e.test)
    statement := "sub " ++ r.name
    description := paragraph (r.description ++ (r.example?.map (·.after)).getD [])
    line := line + r.docLines.length }

/-- The items of some routines, the first of which begins on a line. -/
def itemsFrom : Nat → List Routine → List Item
  | _, [] => []
  | line, r :: rs => r.item line :: itemsFrom (line + r.docLines.length + 1) rs

/-- The module that an outline describes. -/
def toModule (path : Path) (o : Outline) : Module :=
  { path
    package :=
      { statement := "package " ++ o.packageName
        description := paragraph o.description
        line := 1 }
    items := itemsFrom (2 + o.description.length) o.routines
    flavor := .core }

/-! ## Every line is read back -/

theorem isName_intercalate
    {segments : List String} (hne : segments ≠ []) (h : ∀ s ∈ segments, IsIdentifier s) :
    Lexeme.IsName (namespaceSeparator.intercalate segments) := by
  induction segments with
  | nil =>
      contradiction
  | cons s rest ih =>
      obtain ⟨c, cs, hs, hc, hcs⟩ := h s (by simp)
      cases rest with
      | nil =>
          rw [String.intercalate_singleton]
          exact ⟨c, cs, hs, hc, .of_forall hcs⟩
      | cons t rest =>
          obtain ⟨d, ds, ht, hd, hds⟩ := ih (by simp) fun u hu => h u (by simp [hu])
          refine ⟨c, cs ++ ':' :: ':' :: d :: ds, ?_, hc,
            (Lexeme.NameTail.of_forall hcs).append (.separator hd hds)⟩
          have hsep : namespaceSeparator.toList = [':', ':'] := rfl
          rw [String.intercalate_cons_cons, String.toList_append, String.toList_append, hs, ht,
            hsep, List.append_assoc]
          rfl

theorem IsLine.fence : IsLine DocBlock.fence := by
  decide +kernel

theorem Routine.WellFormed.docLine
    {r : Routine} (h : r.WellFormed) {l : String} (hl : l ∈ r.docLines) : IsLine l := by
  unfold Routine.docLines at hl
  rcases List.mem_append.mp hl with hl | hl
  · exact h.description.line l hl
  · cases hexample : r.example? with
    | none =>
        simp [hexample] at hl
    | some e =>
        rw [hexample] at hl
        simp only [List.cons_append, List.mem_cons, List.mem_append] at hl
        rcases hl with rfl | hl | rfl | hl
        · exact IsLine.fence
        · exact (h.test e hexample l hl).1
        · exact IsLine.fence
        · exact h.after e hexample l hl

theorem Routine.WellFormed.isName {r : Routine} (h : r.WellFormed) : Lexeme.IsName r.name := by
  obtain ⟨c, cs, hname, hc, hcs⟩ := h.identifier
  exact ⟨c, cs, hname, hc, .of_forall hcs⟩

theorem WellFormed.isName {o : Outline} (h : o.WellFormed) : Lexeme.IsName o.packageName :=
  isName_intercalate h.named h.identifiers

theorem WellFormed.fits
    {o : Outline} (h : o.WellFormed) : ∀ line ∈ o.lines, line.Fits := by
  intro line hline
  simp only [lines, Routine.lines, List.cons_append, List.mem_cons, List.mem_append, List.mem_map,
    List.mem_flatMap, List.not_mem_nil, or_false] at hline
  rcases hline with rfl | ⟨l, hl, rfl⟩ | ⟨r, hr, ⟨l, hl, rfl⟩ | rfl⟩
  · exact ⟨h.isName, h.notKeyword⟩
  · exact h.description.line l hl
  · exact (h.routines r hr).docLine hl
  · exact ⟨(h.routines r hr).isName, (h.routines r hr).notKeyword⟩

/-! ## Elements of written lines -/

theorem exists_of_mem_elementsFrom
    {offset line : Nat} {written : List WrittenLine} {e : Element}
    (he : e ∈ WrittenLine.elementsFrom offset line written) :
    ∃ w ∈ written, ∃ offset' line', e = w.element offset' line' := by
  induction written generalizing offset line with
  | nil =>
      simp [WrittenLine.elementsFrom] at he
  | cons w written ih =>
      rcases List.mem_cons.mp he with rfl | he
      · exact ⟨w, by simp, offset, line, rfl⟩
      · obtain ⟨w', hw', hsome⟩ := ih he
        exact ⟨w', by simp [hw'], hsome⟩

def offsetAfter (offset : Nat) (written : List WrittenLine) : Nat :=
  written.foldl (fun offset w => w.nextOffset offset) offset

theorem elementsFrom_append (offset line : Nat) (front rest : List WrittenLine) :
    WrittenLine.elementsFrom offset line (front ++ rest) =
      WrittenLine.elementsFrom offset line front ++
        WrittenLine.elementsFrom (offsetAfter offset front) (line + front.length) rest := by
  induction front generalizing offset line with
  | nil =>
      rfl
  | cons w front ih =>
      have hline : line + 1 + front.length = line + (w :: front).length := by
        simp only [List.length_cons]
        omega
      rw [List.cons_append, WrittenLine.elementsFrom, WrittenLine.elementsFrom, ih, hline]
      rfl

theorem marker?_of_mem_docs
    {marker : Marker} {offset line : Nat} {texts : List String} {e : Element}
    (he : e ∈ WrittenLine.elementsFrom offset line (texts.map (.doc marker))) :
    e.marker? = some marker := by
  obtain ⟨w, hw, offset', line', rfl⟩ := exists_of_mem_elementsFrom he
  obtain ⟨text, -, rfl⟩ := List.mem_map.mp hw
  rfl

theorem filterMap_include?_elementsFrom (offset line : Nat) (written : List WrittenLine) :
    (WrittenLine.elementsFrom offset line written).filterMap Element.include? = [] := by
  rw [List.filterMap_eq_nil_iff]
  intro e he
  obtain ⟨w, -, offset', line', rfl⟩ := exists_of_mem_elementsFrom he
  cases w <;> rfl

/-! ## Blocks of written lines -/

/-- The comment lines of a block that begins on a line. -/
def commentLines (marker : Marker) : Nat → List String → List CommentLine
  | _, [] => []
  | line, text :: texts =>
    ⟨marker, marker.lead ++ " " ++ text, line⟩ :: commentLines marker (line + 1) texts

def numbered (line : Nat) (texts : List String) : List DocBlock.Line :=
  (texts.zipIdx line).map Prod.swap

@[simp] theorem map_snd_numbered (line : Nat) (texts : List String) :
    (numbered line texts).map (·.2) = texts := by
  simp [numbered, Function.comp_def]

theorem snd_mem_of_mem_numbered
    {line : Nat} {texts : List String} {l : DocBlock.Line} (hl : l ∈ numbered line texts) :
    l.2 ∈ texts := by
  rw [← map_snd_numbered line texts]
  exact List.mem_map_of_mem hl

theorem numbered_cons (line : Nat) (text : String) (texts : List String) :
    numbered line (text :: texts) = (line, text) :: numbered (line + 1) texts := by
  simp [numbered]

theorem numbered_append (line : Nat) (texts rest : List String) :
    numbered line (texts ++ rest) = numbered line texts ++ numbered (line + texts.length) rest := by
  simp [numbered, List.zipIdx_append]

theorem head?_numbered (line : Nat) (texts : List String) :
    (numbered line texts).head? = texts.head?.map (line, ·) := by
  cases texts <;> simp [numbered]

theorem filterMap_ofElement?_docs (marker : Marker) (offset line : Nat) (texts : List String) :
    (WrittenLine.elementsFrom offset line (texts.map (.doc marker))).filterMap
      CommentLine.ofElement? = commentLines marker line texts := by
  induction texts generalizing offset line with
  | nil =>
      rfl
  | cons text texts ih =>
      simp only [List.map_cons, WrittenLine.elementsFrom, List.filterMap_cons, ih]
      rfl

theorem stripped_commentLines
    {marker : Marker} (hmarker : marker ≠ .plain) (line : Nat) (texts : List String) :
    DocBlock.stripped (commentLines marker line texts) marker = numbered line texts := by
  have hstrip : ∀ text, DocBlock.stripMarker? (marker.lead ++ " " ++ text) marker = some text := by
    intro text
    have hlead : marker.lead? = some marker.lead := by
      cases marker with
      | plain => contradiction
      | packageDoc => rfl
      | itemDoc => rfl
    unfold DocBlock.stripMarker?
    rw [hlead, String.append_assoc]
    simp
  induction texts generalizing line with
  | nil =>
      rfl
  | cons text texts ih =>
      have htail := ih (line + 1)
      unfold DocBlock.stripped numbered at htail ⊢
      simp [commentLines, hstrip, htail]

theorem classify_description
    {marker : Marker} (hmarker : marker ≠ .plain) {description : List String}
    (h : Readable description) (line : Nat) :
    DocBlock.classify (commentLines marker line description) marker =
      .ok (.documented (paragraph description) none) := by
  have hfirst : ∀ l, (numbered line description).head? = some l → ¬ IsDirective l.2 := by
    intro l hl
    rw [head?_numbered] at hl
    obtain ⟨text, htext, rfl⟩ := Option.map_eq_some_iff.mp hl
    exact h.first text htext
  have hunfenced : ∀ l ∈ numbered line description, DocBlock.isOpeningFence l.2 = false :=
    fun l hl => h.unfenced l.2 (snd_mem_of_mem_numbered hl)
  rw [DocBlock.classify_of_not_directive (stripped_commentLines hmarker line description)
      fun l hl => Bool.eq_false_of_not_eq_true (hfirst l hl),
    DocBlock.ofLines_unfenced hunfenced]
  simp only [map_snd_numbered, DocBlock.joinDescription_eq]
  rfl

theorem isOpeningFence_fence : DocBlock.isOpeningFence DocBlock.fence = true := by
  decide +kernel

theorem isClosingFence_fence : DocBlock.isClosingFence DocBlock.fence = true := by
  decide +kernel

theorem not_isDirective_fence : ¬ IsDirective DocBlock.fence := by
  decide +kernel

/-- The block of a routine gives back its description and its example. -/
theorem classify_docLines {r : Routine} (h : r.WellFormed) (line : Nat) :
    DocBlock.classify (commentLines .itemDoc line r.docLines) .itemDoc =
      .ok (.documented (r.item line).description
        (r.example?.map fun e => "\n".intercalate e.test)) := by
  cases hexample : r.example? with
  | none =>
      have hlines : r.docLines = r.description := by simp [Routine.docLines, hexample]
      rw [hlines, classify_description (by decide) h.description line]
      simp [Routine.item, hexample]
  | some e =>
      have hlines : r.docLines =
          r.description ++ DocBlock.fence :: (e.test ++ DocBlock.fence :: e.after) := by
        simp [Routine.docLines, hexample]
      have hfirst : ∀ l, (numbered line r.docLines).head? = some l → ¬ IsDirective l.2 := by
        intro l hl
        rw [head?_numbered, hlines, List.head?_append] at hl
        obtain ⟨text, htext, rfl⟩ := Option.map_eq_some_iff.mp hl
        rcases Option.or_eq_some_iff.mp htext with htext | ⟨-, htext⟩
        · exact h.description.first text htext
        · obtain rfl : DocBlock.fence = text := Option.some.inj htext
          exact not_isDirective_fence
      rw [DocBlock.classify_of_not_directive (stripped_commentLines (by decide) line r.docLines)
          fun l hl => Bool.eq_false_of_not_eq_true (hfirst l hl),
        hlines, numbered_append, numbered_cons, numbered_append, numbered_cons,
        DocBlock.ofLines_closed]
      · simp only [List.map_append, map_snd_numbered, DocBlock.joinDescription_eq,
          Text.joinWith_eq_intercalate, Routine.item, hexample]
        rfl
      · exact fun l hl => h.description.unfenced l.2 (snd_mem_of_mem_numbered hl)
      · exact isOpeningFence_fence
      · exact fun l hl => (h.test e hexample l.2 (snd_mem_of_mem_numbered hl)).2
      · exact isClosingFence_fence

/-! ## Items of written lines -/

theorem leadingRun_append
    {marker : Marker} {front : List Element} (h : ∀ e ∈ front, e.marker? = some marker)
    (rest : List Element) :
    Extract.leadingRun marker (front ++ rest) =
      front.filterMap CommentLine.ofElement? ++ Extract.leadingRun marker rest := by
  have hfront : ∀ e ∈ front, (e.marker? == some marker) = true := by simpa using h
  rw [Extract.leadingRun, List.takeWhile_append_of_pos hfront, List.filterMap_append]
  rfl

theorem leadingRun_eq_nil
    {marker : Marker} {es : List Element} (h : ∀ e ∈ es, e.marker? ≠ some marker) :
    Extract.leadingRun marker es = [] := by
  cases es with
  | nil =>
      rfl
  | cons e es =>
      have hhead : (e.marker? == some marker) = false := by simpa using h e (by simp)
      rw [Extract.leadingRun, List.takeWhile_cons_of_neg (by simp [hhead])]
      rfl

theorem items_comments
    {marker : Marker} {front : List Element} (h : ∀ e ∈ front, e.marker? = some marker)
    (flavor : Flavor) (before rest : List Element) :
    Extract.items flavor before (front ++ rest) =
      Extract.items flavor (front.reverse ++ before) rest := by
  induction front generalizing before with
  | nil =>
      rfl
  | cons e front ih =>
      have hnone : Extract.declared? flavor before e = none := by
        have hmarker := h e (by simp)
        unfold Element.marker? at hmarker
        split at hmarker
        · next hkind => simp [Extract.declared?, hkind]
        · simp at hmarker
      rw [List.cons_append, Extract.items, hnone]
      simp only [ih (fun e' he' => h e' (by simp [he'])) (e :: before), List.reverse_cons,
        List.append_assoc, List.cons_append, List.nil_append]

theorem items_cons_routine
    {e : Element} {name : String} (hkind : e.kind = .routine name)
    (hpublic : Extract.isPrivate name = false) {before : List Element} {description : String}
    {test : Option String}
    (hblock : Extract.itemBlock before = .ok (.documented description test))
    (flavor : Flavor) (es : List Element) :
    Extract.items flavor before (e :: es) =
      (Extract.items flavor (e :: before) es).map
        ({ kind := .routine test, statement := e.text, description, line := e.line } :: ·) := by
  have hdeclared : Extract.declared? flavor before e = some (.ok (.found
      { kind := .routine test, statement := e.text, description, line := e.line })) := by
    unfold Extract.declared? Extract.routineItem Extract.documentedItem
    rw [hkind, hblock]
    simp only [hpublic]
    rfl
  rw [Extract.items, hdeclared]
  generalize Extract.items flavor (e :: before) es = rest
  cases rest <;> rfl

theorem Routine.WellFormed.isPrivate_eq_false
    {r : Routine} (h : r.WellFormed) : Extract.isPrivate r.name = false := by
  rw [← Bool.not_eq_true, Extract.isPrivate_iff]
  rintro ⟨front, rest, hname, rfl | ⟨g, rfl⟩, -⟩
  · exact h.notPrivate (by rw [hname]; rfl)
  · obtain ⟨c, cs, hcs, hc, hall⟩ := h.identifier
    have hcolon : ':' ∈ c :: cs := by
      rw [← hcs, hname]
      simp
    have hword : Lexeme.isWordChar ':' = true := by
      rcases List.mem_cons.mp hcolon with rfl | hmem
      · exact Lexeme.isWordChar_of_isWordStart hc
      · exact hall _ hmem
    rw [Lexeme.isWordChar_colon] at hword
    exact Bool.false_ne_true hword

/-- The items of written routines, whatever stands before them. -/
theorem items_routines
    {routines : List Routine} (h : ∀ r ∈ routines, r.WellFormed) (flavor : Flavor)
    {before : List Element} (hbefore : Extract.leadingRun .itemDoc before = [])
    (offset line : Nat) :
    Extract.items flavor before
        (WrittenLine.elementsFrom offset line (routines.flatMap Routine.lines)) =
      .ok (itemsFrom line routines) := by
  induction routines generalizing before offset line with
  | nil =>
      rfl
  | cons r routines ih =>
      have hr := h r (by simp)
      have hdocs : ∀ e ∈ WrittenLine.elementsFrom offset line (r.docLines.map (.doc .itemDoc)),
          e.marker? = some .itemDoc := fun e he => marker?_of_mem_docs he
      rw [List.flatMap_cons, Routine.lines, List.append_assoc, elementsFrom_append,
        items_comments hdocs, List.length_map, List.singleton_append, WrittenLine.elementsFrom]
      generalize offsetAfter offset (r.docLines.map (.doc .itemDoc)) = offset'
      have hblock : Extract.itemBlock
          ((WrittenLine.elementsFrom offset line (r.docLines.map (.doc .itemDoc))).reverse ++
            before) =
          .ok (.documented (r.item line).description
            (r.example?.map fun e => "\n".intercalate e.test)) := by
        rw [Extract.itemBlock, leadingRun_append (by simpa using hdocs), hbefore, List.append_nil,
          List.filterMap_reverse, List.reverse_reverse, filterMap_ofElement?_docs,
          classify_docLines hr line]
      have hkind : ((WrittenLine.routine r.name).element offset' (line + r.docLines.length)).kind =
          .routine r.name := rfl
      -- The routine itself severs its block from the block of the next one.
      have hsevered : Extract.leadingRun .itemDoc
          ((WrittenLine.routine r.name).element offset' (line + r.docLines.length) ::
            ((WrittenLine.elementsFrom offset line (r.docLines.map (.doc .itemDoc))).reverse ++
              before)) = [] := rfl
      rw [items_cons_routine hkind hr.isPrivate_eq_false hblock,
        ih (fun r' hr' => h r' (by simp [hr'])) hsevered]
      rfl

/-! ## Names -/

theorem isNameChar_of_isWordChar
    {c : Char} (hc : Lexeme.isWordChar c = true) : Item.isNameChar c = true := by
  have hascii : c.toNat < 0x80 := by
    have hrange := Lexeme.toNat_of_isWordChar hc
    omega
  unfold Lexeme.isWordChar at hc
  unfold Item.isNameChar Text.isAlphanumeric
  rw [if_pos hascii, hc, Bool.true_or]

theorem Routine.WellFormed.routineName_statement
    {r : Routine} (h : r.WellFormed) : Item.routineName ("sub " ++ r.name) = r.name := by
  obtain ⟨c, cs, hname, hc, hcs⟩ := h.identifier
  have hchars : ∀ d ∈ r.name.toList, Lexeme.isWordChar d = true := by
    rw [hname]
    simpa using ⟨Lexeme.isWordChar_of_isWordStart hc, hcs⟩
  have hhead : r.name.toList.head? = some c := by rw [hname]; rfl
  have hblank : Text.isBlank c = false :=
    Lexeme.isBlank_of_isWordChar (Lexeme.isWordChar_of_isWordStart hc)
  have hstatement : Text.trimStart ("sub" ++ (" " ++ r.name)) = "sub" ++ (" " ++ r.name) :=
    Text.trimStart_of_head? (by rw [String.toList_append]; rfl) (by decide)
  have hsub : "sub " ++ r.name = "sub" ++ (" " ++ r.name) := by
    rw [← String.append_assoc]
    rfl
  rw [Item.routineName, hsub, hstatement, Text.stripStart?_append, Option.getD_some,
    Text.trimStart_space, Text.trimStart_of_head? hhead hblank,
    List.takeWhile_eq_self_iff.mpr fun d hd => isNameChar_of_isWordChar (hchars d hd),
    String.ofList_toList]

theorem WellFormed.name_toModule
    {o : Outline} (h : o.WellFormed) (path : Path) : (o.toModule path).name = o.packageName := by
  obtain ⟨c, cs, hname, hc, -⟩ := h.isName
  have hhead : o.packageName.toList.head? = some c := by rw [hname]; rfl
  have hblank : ∀ d ∈ o.packageName.toList, Text.isBlank d = false :=
    fun d hd => h.isName.isBlank_eq_false hd
  have hsecond := @Text.words_second "package" (by decide)
    (fun _ hd => Lexeme.isName_package.isBlank_eq_false hd) o.packageName c hhead
    (hblank c (by rw [hname]; simp))
  have hstatement : (o.toModule path).package.statement = "package" ++ " " ++ o.packageName := rfl
  rw [Module.name, PackageItem.name, hstatement, hsecond,
    List.takeWhile_eq_self_iff.mpr (by simpa using hblank), String.ofList_toList]
  rfl

/-! ## The whole outline -/

/-- The elements of an outline: the package, its documentation, and the routines. -/
theorem exists_elementsFrom_lines (o : Outline) :
    ∃ offset offset', WrittenLine.elementsFrom 0 1 o.lines =
      (WrittenLine.package o.packageName).element 0 1 ::
        (WrittenLine.elementsFrom offset 2 (o.description.map (.doc .packageDoc)) ++
          WrittenLine.elementsFrom offset' (2 + o.description.length)
            (o.routines.flatMap Routine.lines)) := by
  refine ⟨(WrittenLine.package o.packageName).nextOffset 0,
    offsetAfter ((WrittenLine.package o.packageName).nextOffset 0)
      (o.description.map (.doc .packageDoc)), ?_⟩
  rw [lines, List.cons_append, WrittenLine.elementsFrom, elementsFrom_append, List.length_map]

theorem WellFormed.classify_packageBlockAt
    {o : Outline} (h : o.WellFormed) :
    DocBlock.classify (Extract.packageBlockAt (WrittenLine.elementsFrom 0 1 o.lines) 0)
      .packageDoc = .ok (.documented (paragraph o.description) none) := by
  obtain ⟨offset, offset', helements⟩ := exists_elementsFrom_lines o
  have hrun : Extract.packageBlockAt (WrittenLine.elementsFrom 0 1 o.lines) 0 =
      Extract.leadingRun .packageDoc ((WrittenLine.elementsFrom 0 1 o.lines).drop 1) := rfl
  -- No line of a routine belongs to the block of the package.
  have hroutines : ∀ e ∈ WrittenLine.elementsFrom offset' (2 + o.description.length)
      (o.routines.flatMap Routine.lines), e.marker? ≠ some .packageDoc := by
    intro e he
    obtain ⟨w, hw, _, _, rfl⟩ := exists_of_mem_elementsFrom he
    simp only [List.mem_flatMap, Routine.lines, List.mem_append, List.mem_map,
      List.mem_singleton] at hw
    obtain ⟨r, -, ⟨text, -, rfl⟩ | rfl⟩ := hw
    · simp [WrittenLine.element, Element.marker?]
    · simp [WrittenLine.element, Element.marker?]
  rw [hrun, helements, List.drop_one, List.tail_cons,
    leadingRun_append fun e he => marker?_of_mem_docs he, filterMap_ofElement?_docs,
    leadingRun_eq_nil hroutines, List.append_nil, classify_description (by decide) h.description]

theorem WellFormed.items_lines
    {o : Outline} (h : o.WellFormed) (flavor : Flavor) :
    Extract.items flavor [] (WrittenLine.elementsFrom 0 1 o.lines) =
      .ok (itemsFrom (2 + o.description.length) o.routines) := by
  obtain ⟨offset, offset', helements⟩ := exists_elementsFrom_lines o
  have hdocs : ∀ e ∈ WrittenLine.elementsFrom offset 2 (o.description.map (.doc .packageDoc)),
      e.marker? = some .packageDoc := fun e he => marker?_of_mem_docs he
  have hpackage : Extract.declared? flavor []
      ((WrittenLine.package o.packageName).element 0 1) = none := rfl
  rw [helements, Extract.items, hpackage, items_comments hdocs]
  refine items_routines h.routines flavor (leadingRun_eq_nil ?_) offset' _
  intro e he
  rcases List.mem_append.mp he with he | he
  · simp [hdocs e (List.mem_reverse.mp he)]
  · obtain rfl := List.mem_singleton.mp he
    simp [WrittenLine.element, Element.marker?]

theorem WellFormed.map_routineName
    {routines : List Routine} (h : ∀ r ∈ routines, r.WellFormed) (line : Nat) :
    (itemsFrom line routines).map (fun item => Item.routineName item.statement) =
      routines.map (·.name) := by
  induction routines generalizing line with
  | nil =>
      rfl
  | cons r routines ih =>
      rw [itemsFrom, List.map_cons, List.map_cons, ih fun r' hr' => h r' (by simp [hr'])]
      exact congrArg (· :: _) (h r (by simp)).routineName_statement

/-- A written outline is extracted as the module that it describes, under its own name and with its
routines in order. -/
theorem extract_source
    {o : Outline} (h : o.WellFormed) (settings : ExtractSettings) (path : Path) :
    Module.extract settings path o.source = .ok (.found (o.toModule path)) ∧
      (o.toModule path).name = o.packageName ∧
      (o.toModule path).items.map (fun item => Item.routineName item.statement) =
        o.routines.map (·.name) := by
  refine ⟨?_, h.name_toModule path, WellFormed.map_routineName h.routines _⟩
  have hfirst : Extract.FirstPackage (WrittenLine.elementsFrom 0 1 o.lines) 0
      ((WrittenLine.package o.packageName).element 0 1) :=
    ⟨rfl, rfl, by simp⟩
  have hflavor : Flavor.detect
      ((WrittenLine.elementsFrom 0 1 o.lines).filterMap Element.include?) settings.extensions =
      .core := by
    rw [filterMap_include?_elementsFrom]
    rfl
  rw [Module.extract, source, WrittenLine.scan_textOf h.fits,
    Extract.ofElements_of_documented hfirst h.classify_packageBlockAt, hflavor, h.items_lines]
  rfl

/-- An outline whose routines are named like quote operators and whose example quotes a fence. -/
def swapping : Outline :=
  { segments := ["Data", "Swap"]
    description := ["Swaps values.", ""]
    routines :=
      [{ name := "s"
         description := ["", "Swaps; see ```q."]
         example? := some { test := ["is(s(1), 'é'); # ```", ""], after := ["```perl"] } },
        { name := "q", description := [], example? := none }] }

theorem swapping_wellFormed : swapping.WellFormed where
  named := by decide
  identifiers := by
    have hdata : IsIdentifier "Data" :=
      ⟨'D', ['a', 't', 'a'], rfl, by decide, List.all_eq_true.mp (by decide)⟩
    have hswap : IsIdentifier "Swap" :=
      ⟨'S', ['w', 'a', 'p'], rfl, by decide, List.all_eq_true.mp (by decide)⟩
    simpa [swapping] using ⟨hdata, hswap⟩
  notKeyword := by decide +kernel
  description :=
    { line := by decide +kernel
      first := by
        rintro l ⟨⟩
        decide +kernel
      unfenced := by decide +kernel }
  routines := by
    simp only [swapping, List.mem_cons, List.not_mem_nil, or_false]
    rintro r (rfl | rfl)
    · exact
        { identifier := ⟨'s', [], rfl, by decide, by simp⟩
          notPrivate := by decide +kernel
          notKeyword := by decide +kernel
          description :=
            { line := by decide +kernel
              first := by
                rintro l ⟨⟩
                decide +kernel
              unfenced := by decide +kernel }
          test := by
            rintro e ⟨⟩
            decide +kernel
          after := by
            rintro e ⟨⟩
            decide +kernel }
    · exact
        { identifier := ⟨'q', [], rfl, by decide, by simp⟩
          notPrivate := by decide +kernel
          notKeyword := by decide +kernel
          description := { line := by simp, first := by simp, unfenced := by simp }
          test := by simp
          after := by simp }

theorem extract_source_swapping :
    swapping.WellFormed ∧
      Module.extract {} ⟨"lib/Data/Swap.pm"⟩ swapping.source =
        .ok (.found (swapping.toModule ⟨"lib/Data/Swap.pm"⟩)) ∧
      (swapping.toModule ⟨"lib/Data/Swap.pm"⟩).name = "Data::Swap" ∧
      (swapping.toModule ⟨"lib/Data/Swap.pm"⟩).items.map
        (fun item => Item.routineName item.statement) = ["s", "q"] :=
  ⟨swapping_wellFormed, extract_source swapping_wellFormed {} ⟨"lib/Data/Swap.pm"⟩⟩

end Outline

end MarkerDoc
