import MarkerDoc.Proofs.Links

/-!
# Documents and the paths of their pages

The page of a document is placed by the document's path below the project: the extension is taken
off, and the extension of a page is put on.  Putting it on takes off whatever else looks like an
extension.  So a document keeps its path exactly when its stem holds no dot behind the first
character, and documents whose stems differ only behind such a dot meet in one page.  A page is
named by texts: names whose bytes are no text are lost too, and those that read alike meet.
-/

namespace MarkerDoc.Page

open MarkerDoc.Path (Component component? splitName pageName)
open MarkerDoc.Project (fileKey)

/-- The path leads through some names to a file with the extension of a document. -/
structure IsDocumentPath (rel : Path) (front : List String) (stem : String) : Prop where
  components : rel.components = (front ++ [stem ++ ".md"]).map .name
  stem_ne_empty : stem ≠ ""

/-- The stem is a name by itself, and nothing in it looks like an extension. -/
def KeepsStem (stem : String) : Prop :=
  stem ≠ "." ∧ '.' ∉ stem.toList.tail

instance (stem : String) : Decidable (KeepsStem stem) :=
  inferInstanceAs (Decidable (_ ∧ _))

/-- The stem is kept, and all names are texts. -/
def KeepsPath (front : List String) (stem : String) : Prop :=
  KeepsStem stem ∧ ∀ s ∈ front ++ [stem], (Bytes.toText? s).isSome

instance (front : List String) (stem : String) : Decidable (KeepsPath front stem) :=
  inferInstanceAs (Decidable (_ ∧ _))

/-- The names of a document: a stem that is no name by itself is lost. -/
def keptSegments (front : List String) (stem : String) : List String :=
  if stem = "." ∨ stem = ".." then front else front ++ [stem]

theorem length_components_place
    {segments : List String} (h : ∀ s ∈ segments, IsPlain s) :
    (place segments).components.length = segments.length := by
  rcases List.eq_nil_or_concat segments with rfl | ⟨front, last, rfl⟩
  · rw [components_place_nil]
    rfl
  · rw [List.concat_eq_append] at h ⊢
    rw [components_place_of_isPlain h]
    simp

theorem components_place_eq_iff_fileKey
    {segments segments' : List String} (h : ∀ s ∈ segments, IsPlain s)
    (h' : ∀ s ∈ segments', IsPlain s) :
    (place segments).components = (place segments').components ↔
      fileKey segments = fileKey segments' := by
  have hnil : ∀ {segments : List String}, (∀ s ∈ segments, IsPlain s) →
      ((place segments).components = [] ↔ segments = []) := by
    intro segments h
    rw [← List.length_eq_zero_iff, length_components_place h, List.length_eq_zero_iff]
  have hkey : ∀ {segments : List String}, fileKey segments = ([], none) ↔ segments = [] := by
    intro segments
    rcases List.eq_nil_or_concat segments with rfl | ⟨front, last, rfl⟩
    · exact iff_of_true rfl rfl
    · simp [fileKey]
  by_cases hne : segments = []
  · rw [hne, components_place_nil]
    exact eq_comm.trans ((hnil h').trans (hkey.symm.trans eq_comm))
  · by_cases hne' : segments' = []
    · rw [hne', components_place_nil]
      exact (hnil h).trans hkey.symm
    · exact Project.components_place_eq_iff hne hne' h h'

theorem splitName_append_extension {stem : String} (h : stem ≠ "") :
    splitName (stem ++ ".md") = (stem, some "md") := by
  have hlist : (stem ++ ".md").toList = stem.toList ++ '.' :: ['m', 'd'] := by simp
  have hup : stem ++ ".md" ≠ ".." := by
    intro heq
    have hlast := congrArg (fun s : String => s.toList.getLast?) heq
    simp [hlist] at hlast
  rw [Path.splitName_at_dot (mt String.toList_eq_nil_iff.mp h) (by decide) hlist hup,
    String.ofList_toList]

theorem map_ofText_toText_eq_self_iff {names : List String} :
    (names.map Bytes.toText).map Bytes.ofText = names ↔
      ∀ s ∈ names, (Bytes.toText? s).isSome := by
  rw [List.map_map]
  nth_rewrite 2 [← List.map_id names]
  rw [List.map_inj_left]
  exact forall₂_congr fun s _ => Bytes.ofText_toText_eq_iff

theorem splitName_ofText_toText_eq_iff {s : String} (hup : s ≠ "..") :
    (splitName (Bytes.ofText (Bytes.toText s))).1 = s ↔
      (Bytes.toText? s).isSome ∧ '.' ∉ s.toList.tail := by
  rw [← Bytes.ofText_toText_eq_iff, ← Path.splitName_fst_eq_self_iff hup]
  constructor
  · intro h
    -- A name that is the front of a text is a text.
    rw [Bytes.splitName_ofText] at h
    have htext : Bytes.ofText (Bytes.toText s) = s := by
      rw [← h, Bytes.toText_ofText]
    rw [← Bytes.splitName_ofText, htext] at h
    exact ⟨htext, h⟩
  · rintro ⟨htext, hstem⟩
    rw [htext, hstem]

section

variable {rel : Path} {front : List String} {stem : String} (h : IsDocumentPath rel front stem)
include h

theorem IsDocumentPath.isBelow : rel.IsBelow :=
  Path.isBelow_of_components h.components (by simp)

theorem IsDocumentPath.component?_stem :
    (component? stem).bind Component.name? =
      if stem = "." ∨ stem = ".." then none else some stem := by
  have hidle : Path.isIdle stem = true ↔ stem = "." := by simp [Path.isIdle, h.stem_ne_empty]
  unfold component?
  split_ifs <;> simp_all [Component.name?]

/-- The place of a document below any root. -/
theorem IsDocumentPath.documentSegments_join (root : Path) :
    documentSegments root (root.join rel) = (keptSegments front stem).map Bytes.toText := by
  have hbelow : root.componentsBelow? (root.join rel) = some rel.components := by
    rw [Path.componentsBelow?, h.isBelow.components_join, Text.afterLead?_append]
  have hlast : rel.components.getLast?.bind Component.name? = some (stem ++ ".md") := by
    simp [h.components, Component.name?]
  have hdrop : rel.components.dropLast = front.map .name := by
    rw [h.components, List.map_append, List.map_singleton, List.dropLast_concat]
  have hnames : (front.map Component.name).filterMap Component.name? = front := by
    rw [List.filterMap_map]
    exact List.filterMap_some
  have hstem : (component? stem).toList.filterMap Component.name? =
      ((component? stem).bind Component.name?).toList := by
    cases component? stem <;> rfl
  rw [documentSegments, hbelow, Option.getD_some, Path.stemSteps, hlast]
  apply congrArg (List.map Bytes.toText)
  simp only
  rw [splitName_append_extension h.stem_ne_empty, hdrop, List.filterMap_append, hnames, hstem,
    h.component?_stem, keptSegments]
  split_ifs <;> simp

theorem IsDocumentPath.isPlain_keptSegments {s : String}
    (hs : s ∈ (keptSegments front stem).map Bytes.toText) : IsPlain s := by
  rw [← h.documentSegments_join ⟨""⟩] at hs
  exact isPlain_documentSegments hs

/-- A document keeps its path if and only if its names are texts and its stem does not look as if
it had an extension. -/
theorem IsDocumentPath.components_documentPath_eq_iff (root : Path) (content : String) :
    (documentPath root ⟨root.join rel, content⟩).components = rel.components ↔
      KeepsPath front stem := by
  rw [documentPath, h.documentSegments_join]
  by_cases hlost : stem = "." ∨ stem = ".."
  · -- One segment is missing, and with it one component.
    have hlength := length_components_place fun s hs => h.isPlain_keptSegments hs
    have hshorter :
        (place ((keptSegments front stem).map Bytes.toText)).components ≠ rel.components := by
      intro heq
      rw [heq, h.components, keptSegments, if_pos hlost] at hlength
      simp at hlength
    have hdotted : ¬ KeepsPath front stem := by
      rcases hlost with rfl | rfl
      · exact fun hkeeps => hkeeps.1.1 rfl
      · exact fun hkeeps => absurd hkeeps.1 (by decide)
    exact iff_of_false hshorter hdotted
  · obtain ⟨hdot, hup⟩ := not_or.mp hlost
    have hkept : (keptSegments front stem).map Bytes.toText =
        front.map Bytes.toText ++ [Bytes.toText stem] := by
      rw [keptSegments, if_neg hlost, List.map_append, List.map_singleton]
    have hplain : ∀ s ∈ front.map Bytes.toText ++ [Bytes.toText stem], IsPlain s := fun s hs =>
      h.isPlain_keptSegments (hkept.symm ▸ hs)
    have hlast : pageName (Bytes.ofText (Bytes.toText stem)) = stem ++ ".md" ↔
        (Bytes.toText? stem).isSome ∧ KeepsStem stem := by
      rw [pageName, String.append_assoc]
      exact (String.append_left_inj _).trans
        ((splitName_ofText_toText_eq_iff hup).trans (and_congr_right' (and_iff_right hdot).symm))
    rw [hkept, components_place_of_isPlain hplain, h.components, ← List.map_singleton,
      ← List.map_append, (List.map_injective_iff.mpr fun _ _ => Component.name.inj).eq_iff]
    constructor
    · intro heq
      obtain ⟨hnames, hname⟩ := List.append_inj' heq (by simp only [List.length_singleton])
      obtain ⟨htext, hstem⟩ := hlast.mp (List.singleton_inj.mp hname)
      refine ⟨hstem, fun s hs => ?_⟩
      rcases List.mem_append.mp hs with hs | hs
      · exact map_ofText_toText_eq_self_iff.mp hnames s hs
      · rwa [List.mem_singleton.mp hs]
    · rintro ⟨hstem, htexts⟩
      rw [map_ofText_toText_eq_self_iff.mpr fun s hs => htexts s (List.mem_append_left _ hs),
        hlast.mpr ⟨htexts stem (by simp), hstem⟩]

end

/-- When documents keep their paths, and when two of them meet in one page: if and only if their
segments agree in all but what looks like the extension of the last one.  Documents that keep their
paths meet only if they have the same. -/
theorem documentPath_keeps_path_iff
    {rel rel' : Path} {front front' : List String} {stem stem' : String}
    (h : IsDocumentPath rel front stem) (h' : IsDocumentPath rel' front' stem') (root : Path)
    (content content' : String) :
    ((documentPath root ⟨root.join rel, content⟩).components = rel.components ↔
        KeepsPath front stem) ∧
      ((documentPath root ⟨root.join rel, content⟩).components =
          (documentPath root ⟨root.join rel', content'⟩).components ↔
        fileKey ((keptSegments front stem).map Bytes.toText) =
          fileKey ((keptSegments front' stem').map Bytes.toText)) ∧
      (KeepsPath front stem → KeepsPath front' stem' →
        ((documentPath root ⟨root.join rel, content⟩).components =
          (documentPath root ⟨root.join rel', content'⟩).components ↔
        rel.components = rel'.components)) := by
  have hkeeps := h.components_documentPath_eq_iff root content
  have hkeeps' := h'.components_documentPath_eq_iff root content'
  refine ⟨hkeeps, ?_, ?_⟩
  · rw [documentPath, documentPath, h.documentSegments_join, h'.documentSegments_join]
    exact components_place_eq_iff_fileKey (fun s hs => h.isPlain_keptSegments hs)
      fun s hs => h'.isPlain_keptSegments hs
  · intro hpath hpath'
    rw [hkeeps.mpr hpath, hkeeps'.mpr hpath']

/-- A dot at the start of a stem is kept, and a version behind an inner dot is not. -/
theorem documentPath_keeps_path_hidden_and_versioned :
    IsDocumentPath ⟨"docs//.notes.md"⟩ ["docs"] ".notes" ∧
      IsDocumentPath ⟨"docs/v1.2.md"⟩ ["docs"] "v1.2" ∧
      (documentPath ⟨"./p/"⟩ ⟨Path.join ⟨"./p/"⟩ ⟨"docs//.notes.md"⟩, "hidden"⟩).components =
        (⟨"docs//.notes.md"⟩ : Path).components ∧
      (documentPath ⟨"./p/"⟩ ⟨Path.join ⟨"./p/"⟩ ⟨"docs/v1.2.md"⟩, "two"⟩).components ≠
        (⟨"docs/v1.2.md"⟩ : Path).components := by
  have hhidden : IsDocumentPath ⟨"docs//.notes.md"⟩ ["docs"] ".notes" :=
    ⟨by decide +kernel, by decide⟩
  have hversioned : IsDocumentPath ⟨"docs/v1.2.md"⟩ ["docs"] "v1.2" :=
    ⟨by decide +kernel, by decide⟩
  obtain ⟨hkeeps, -⟩ := documentPath_keeps_path_iff hhidden hversioned ⟨"./p/"⟩ "hidden" "two"
  obtain ⟨hkeeps', -⟩ := documentPath_keeps_path_iff hversioned hhidden ⟨"./p/"⟩ "two" "hidden"
  exact ⟨hhidden, hversioned, hkeeps.mpr (by decide), mt hkeeps'.mp (by decide)⟩

/-- Two versions of a document have one page, which is at the path of neither. -/
theorem documentPath_shared_by_versions :
    documentPath ⟨"proj"⟩ ⟨⟨"proj/docs/v1.2.md"⟩, "two"⟩ = ⟨"docs/v1.md"⟩ ∧
      documentPath ⟨"proj"⟩ ⟨⟨"proj/docs/v1.3.md"⟩, "three"⟩ = ⟨"docs/v1.md"⟩ := by
  decide +kernel

end MarkerDoc.Page
