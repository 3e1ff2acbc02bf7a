import MarkerDoc.Page
import MarkerDoc.Proofs.Bytes
import MarkerDoc.Proofs.PackageStatement

/-!
# Where pages are placed

A page is placed below the output directory by the segments of its module or document.  The segments
of a document are plain names, so the page of a document that has any is always below the directory.
The segments of a module are taken from a statement in the source and may hold slashes; its page is
below the directory exactly when none of them starts again at the root or goes up.
-/

namespace MarkerDoc.Page

open MarkerDoc.Path (Component component? steps)

/-! ## Plain segments -/

/-- A segment that is one name as a path. -/
structure IsPlain (s : String) : Prop where
  name : component? s = some (.name s)
  slash : '/' ∉ s.toList

theorem isPlain_iff {s : String} :
    IsPlain s ↔ s ≠ "" ∧ s ≠ "." ∧ s ≠ ".." ∧ '/' ∉ s.toList := by
  have hidle : Path.isIdle s = false ↔ s ≠ "" ∧ s ≠ "." := by simp [Path.isIdle]
  constructor
  · rintro ⟨hname, hslash⟩
    obtain ⟨-, hactive, hup⟩ := Path.component?_eq_name_iff.mp hname
    exact ⟨(hidle.mp hactive).1, (hidle.mp hactive).2, hup, hslash⟩
  · rintro ⟨hempty, hhere, hup, hslash⟩
    exact ⟨Path.component?_eq_name_iff.mpr ⟨rfl, hidle.mpr ⟨hempty, hhere⟩, hup⟩, hslash⟩

theorem isPlain_ofText_iff {s : String} : IsPlain (Bytes.ofText s) ↔ IsPlain s := by
  rw [isPlain_iff, isPlain_iff]
  simp only [ne_eq, Bytes.ofText_eq_of_ascii (t := "") (by decide),
    Bytes.ofText_eq_of_ascii (t := ".") (by decide),
    Bytes.ofText_eq_of_ascii (t := "..") (by decide),
    Bytes.mem_ofText_iff (x := '/') (by decide)]

/-- A name stays one name when it is printed. -/
theorem IsPlain.toText {s : String} (h : IsPlain s) : IsPlain (Bytes.toText s) := by
  obtain ⟨hempty, hhere, hup, hslash⟩ := isPlain_iff.mp h
  refine isPlain_iff.mpr ⟨?_, ?_, ?_, fun hmem => hslash (Bytes.mem_of_mem_toText (by decide) hmem)⟩
  · exact mt (Bytes.toText_eq_of_ascii (by decide)).mp hempty
  · exact mt (Bytes.toText_eq_of_ascii (by decide)).mp hhere
  · exact mt (Bytes.toText_eq_of_ascii (by decide)).mp hup

theorem splitOn_slash_of_not_mem {s : String} (h : '/' ∉ s.toList) : Text.splitOn "/" s = [s] := by
  have hjoin := @Text.splitOn_slash_joinWith [s] (by simp) (by simpa using h)
  simpa [Text.joinWith] using hjoin

theorem IsPlain.steps_eq {s : String} (h : IsPlain s) : steps s = [.name s] := by
  rw [steps, splitOn_slash_of_not_mem h.slash]
  simp [h.name]

theorem IsPlain.components_eq {s : String} (h : IsPlain s) :
    Path.components ⟨s⟩ = [.name s] := by
  obtain ⟨-, hidle, -⟩ := Path.component?_eq_name_iff.mp h.name
  have hne : s ≠ "" ∧ s ≠ "." := by simpa [Path.isIdle] using hidle
  rw [Path.components, Path.pieces, splitOn_slash_of_not_mem h.slash]
  simp [Path.Pieces.ofList, Path.leadComponents, hne, h.name]

theorem IsPlain.ne_empty {s : String} (h : IsPlain s) : s ≠ "" := by
  rintro rfl
  have hnone : component? "" = none := by decide +kernel
  simpa [hnone] using h.name

theorem IsPlain.isAbsolute_eq_false {s : String} (h : IsPlain s) :
    Path.isAbsolute ⟨s⟩ = false := by
  rw [← Bool.not_eq_true, Path.isAbsolute_iff]
  rintro ⟨t, ht⟩
  exact h.slash (by simp only at ht; simp [ht])

theorem components_ofSegments_of_isPlain
    {segments : List String} (h : ∀ s ∈ segments, IsPlain s) :
    (Path.ofSegments segments).components = segments.map .name := by
  cases segments with
  | nil =>
      decide +kernel
  | cons first rest =>
      have hfirst := h first (by simp)
      rw [Path.components_ofSegments hfirst.ne_empty
        (hfirst.components_eq.trans hfirst.steps_eq.symm)
        fun s hs => (h s (by simp [hs])).isAbsolute_eq_false,
        List.flatMap_congr fun s hs => (h s hs).steps_eq, ← List.map_eq_flatMap]

/-! ## Documents -/

theorem isPlain_of_mem_components
    {p : Path} {name : String} (h : Component.name name ∈ p.components) : IsPlain name := by
  have hbody : ∃ piece ∈ p.pieces.body, component? piece = some (.name name) := by
    rcases List.mem_append.mp h with hlead | hbody
    · unfold Path.leadComponents at hlead
      split at hlead <;> simp at hlead
    · exact List.mem_filterMap.mp hbody
  obtain ⟨piece, hpiece, hsome⟩ := hbody
  obtain ⟨rfl, -⟩ := Path.component?_eq_name_iff.mp hsome
  exact ⟨hsome, Path.slash_not_mem_of_mem_pieces (List.mem_append_right _ hpiece)⟩

theorem mem_components_of_mem_below
    {root path : Path} {c : Component}
    (h : c ∈ (root.componentsBelow? path).getD path.components) : c ∈ path.components := by
  cases hbelow : root.componentsBelow? path with
  | none =>
      simpa [hbelow] using h
  | some rest =>
      rw [Text.afterLead?_eq_some_iff.mp hbelow]
      rw [hbelow, Option.getD_some] at h
      exact List.mem_append_right _ h

theorem isPlain_of_mem_stemSteps
    {root path : Path} {s : String}
    (h : .name s ∈ Path.stemSteps ((root.componentsBelow? path).getD path.components)) :
    IsPlain s := by
  have hsteps : ∀ name, Component.name name ∈ (root.componentsBelow? path).getD path.components →
      IsPlain name := fun name hname =>
    isPlain_of_mem_components (mem_components_of_mem_below hname)
  generalize (root.componentsBelow? path).getD path.components = steps at h hsteps
  unfold Path.stemSteps at h
  split at h
  · next name hlast =>
      rcases List.mem_append.mp h with hc | hc
      · exact hsteps s (List.mem_of_mem_dropLast hc)
      · -- The last segment is the stem of a name.
        rw [Option.mem_toList] at hc
        obtain ⟨rfl, -⟩ := Path.component?_eq_name_iff.mp hc
        have hmem : Component.name name ∈ steps := by
          obtain ⟨c, hc, hcname⟩ := Option.bind_eq_some_iff.mp hlast
          obtain rfl := Path.Component.name?_eq_some_iff.mp hcname
          exact List.mem_of_getLast? hc
        exact ⟨hc, Path.slash_not_mem_splitName (hsteps name hmem).slash⟩
  · exact hsteps s h

theorem isPlain_documentSegments
    {root path : Path} {s : String} (h : s ∈ documentSegments root path) : IsPlain s := by
  obtain ⟨name, hname, rfl⟩ := List.mem_map.mp h
  obtain ⟨c, hc, hsome⟩ := List.mem_filterMap.mp hname
  obtain rfl := Path.Component.name?_eq_some_iff.mp hsome
  exact (isPlain_of_mem_stemSteps hc).toText

theorem components_place_of_isPlain
    {front : List String} {last : String} (h : ∀ s ∈ front ++ [last], IsPlain s) :
    (place (front ++ [last])).components =
      (front.map Bytes.ofText).map .name ++ [.name (Path.pageName (Bytes.ofText last))] := by
  have hbytes : ∀ s ∈ front.map Bytes.ofText ++ [Bytes.ofText last], IsPlain s := by
    intro s hs
    rw [← List.map_singleton, ← List.map_append] at hs
    obtain ⟨t, ht, rfl⟩ := List.mem_map.mp hs
    exact isPlain_ofText_iff.mpr (h t ht)
  have hcomponents : (Path.ofSegments ((front ++ [last]).map Bytes.ofText)).components =
      (front.map Bytes.ofText).map .name ++ [.name (Bytes.ofText last)] := by
    rw [List.map_append, List.map_singleton, components_ofSegments_of_isPlain hbytes,
      List.map_append, List.map_singleton]
  rw [place, Path.components_withExtension (Path.fileName?_eq_some_iff.mpr ⟨_, hcomponents⟩),
    hcomponents, List.dropLast_concat]

theorem components_place_nil : (place []).components = [] := by
  decide +kernel

theorem exists_name_of_mem_documentPath
    {root : Path} {d : Document} {c : Component} (h : c ∈ (documentPath root d).components) :
    ∃ name, c = .name name := by
  rcases List.eq_nil_or_concat (documentSegments root d.path) with hnil | ⟨front, last, hlast⟩
  · rw [documentPath, hnil, components_place_nil] at h
    simp at h
  · rw [List.concat_eq_append] at hlast
    rw [documentPath, hlast, components_place_of_isPlain fun s hs =>
      isPlain_documentSegments (hlast.symm ▸ hs)] at h
    rcases List.mem_append.mp h with h | h
    · obtain ⟨name, -, rfl⟩ := List.mem_map.mp h
      exact ⟨name, rfl⟩
    · exact ⟨_, List.mem_singleton.mp h⟩

/-- The page of a document is below the output directory unless it has no segments at all. -/
theorem isBelow_documentPath_iff (root : Path) (d : Document) :
    (documentPath root d).IsBelow ↔ documentSegments root d.path ≠ [] := by
  constructor
  · rintro ⟨hne, -⟩ hnil
    rw [documentPath, hnil, components_place_nil] at hne
    exact hne rfl
  · intro hne
    refine ⟨?_, fun c hc => exists_name_of_mem_documentPath hc⟩
    obtain ⟨front, last, hlast⟩ := (List.eq_nil_or_concat _).resolve_left hne
    rw [List.concat_eq_append] at hlast
    rw [documentPath, hlast, components_place_of_isPlain fun s hs =>
      isPlain_documentSegments (hlast.symm ▸ hs)]
    simp

/-! ## Modules -/

/-- A segment that neither starts again at the root nor goes up. -/
def KeepsBelow (s : String) : Prop :=
  Path.isAbsolute ⟨s⟩ = false ∧ ".." ∉ Text.splitOn "/" s

theorem keepsBelow_ofText_iff {s : String} : KeepsBelow (Bytes.ofText s) ↔ KeepsBelow s := by
  rw [KeepsBelow, KeepsBelow, Bytes.isAbsolute_ofText, Bytes.splitOn_ofText, List.mem_map]
  simp only [Bytes.ofText_eq_of_ascii (t := "..") (by decide), exists_eq_right]

theorem isBelow_ofSegments_iff
    {first : String} {rest : List String} {c : Char} (hhead : first.toList.head? = some c)
    (hc : Lexeme.isWordStart c = true) :
    (Path.ofSegments (first :: rest)).IsBelow ↔ ∀ s ∈ first :: rest, KeepsBelow s := by
  have hslash : c ≠ '/' := Lexeme.ne_of_isWordStart hc (by decide)
  have hdot : c ≠ '.' := Lexeme.ne_of_isWordStart hc (by decide)
  by_cases habsolute : ∃ s ∈ first :: rest, Path.isAbsolute ⟨s⟩ = true
  · -- A segment that starts at the root makes the whole path absolute.
    constructor
    · intro hbelow
      have hroot := Path.isAbsolute_foldl_join (p := ⟨""⟩) (.inr habsolute)
      exact absurd (hbelow.isAbsolute_eq_false.symm.trans hroot) Bool.false_ne_true
    · intro hkeeps
      obtain ⟨s, hs, hroot⟩ := habsolute
      exact absurd ((hkeeps s hs).1.symm.trans hroot) Bool.false_ne_true
  · have hrelative : ∀ s ∈ first :: rest, Path.isAbsolute ⟨s⟩ = false := by
      simpa using habsolute
    have hfirst : first ≠ "" := by
      rintro rfl
      simp at hhead
    have hcomponents : (Path.ofSegments (first :: rest)).components =
        (first :: rest).flatMap steps :=
      Path.components_ofSegments hfirst (Path.components_eq_steps_of_head? hhead hslash hdot)
        fun s hs => hrelative s (List.mem_cons_of_mem _ hs)
    have hne : (first :: rest).flatMap steps ≠ [] := by
      simp [Path.steps_ne_nil_of_head? hhead hslash hdot]
    calc (Path.ofSegments (first :: rest)).IsBelow
        ↔ ∀ s ∈ first :: rest, ∀ c ∈ steps s, ∃ name, c = Component.name name := by
          rw [Path.IsBelow, hcomponents]
          simp only [List.mem_flatMap, hne, ne_eq, not_false_eq_true, true_and]
          exact ⟨fun h s hs c hc => h c ⟨s, hs, hc⟩, fun h c ⟨s, hs, hc⟩ => h s hs c hc⟩
      _ ↔ ∀ s ∈ first :: rest, ".." ∉ Text.splitOn "/" s := by
          simp only [Path.forall_steps_iff]
      _ ↔ ∀ s ∈ first :: rest, KeepsBelow s :=
          forall₂_congr fun s hs => by simp [KeepsBelow, hrelative s hs]

theorem isBelow_place_iff
    {first : String} {rest : List String} {c : Char} (hhead : first.toList.head? = some c)
    (hc : Lexeme.isWordStart c = true) :
    (place (first :: rest)).IsBelow ↔ ∀ s ∈ first :: rest, KeepsBelow s := by
  have hhead' : (Bytes.ofText first).toList.head? = some c :=
    (Bytes.head?_ofText_eq_some_iff (by
      have := Lexeme.toNat_of_isWordChar (Lexeme.isWordChar_of_isWordStart hc); omega)).mpr hhead
  rw [place, Path.isBelow_withExtension_iff, List.map_cons, isBelow_ofSegments_iff hhead' hc,
    ← List.map_cons, List.forall_mem_map]
  exact forall₂_congr fun s _ => keepsBelow_ofText_iff

/-- The page of an extracted module is below the output directory exactly when no segment of its
name leads out. -/
theorem isBelow_modulePath_iff
    {settings : ExtractSettings} {path : Path} {source : String} {m : Module}
    (h : Module.extract settings path source = .ok (.found m)) :
    (modulePath m).IsBelow ↔ ∀ s ∈ m.package.segments, KeepsBelow s := by
  obtain ⟨first, rest, c, hsegments, hhead, hc⟩ := Module.exists_first_segment h
  rw [modulePath, hsegments]
  exact isBelow_place_iff hhead hc

/-- Which pages stay below the output directory: those of modules none of whose segments leads out,
and those of documents that have segments.  A path that stays below does so under any directory. -/
theorem pages_below_output
    {settings : ExtractSettings} {path : Path} {source : String} {m : Module}
    (h : Module.extract settings path source = .ok (.found m)) (root : Path) (d : Document) :
    ((modulePath m).IsBelow ↔ ∀ s ∈ m.package.segments, KeepsBelow s) ∧
      (∀ c ∈ (documentPath root d).components, ∃ name, c = .name name) ∧
      ((documentPath root d).IsBelow ↔ documentSegments root d.path ≠ []) ∧
      ∀ output page : Path, page.IsBelow →
        (output.join page).components = output.components ++ page.components :=
  ⟨isBelow_modulePath_iff h, fun _ hc => exists_name_of_mem_documentPath hc,
    isBelow_documentPath_iff root d, fun output _ hpage => hpage.components_join output⟩

/-- The module of a source that holds a package declaration and nothing else. -/
def bareModule (statement : String) : Module :=
  { path := ⟨"lib/Foo.pm"⟩
    package := { statement, description := "", line := 1 }
    items := []
    flavor := .core }

theorem pages_below_output_slashed :
    Module.extract {} ⟨"lib/Foo.pm"⟩ "package Foo::Bar/Baz;\n" =
        .ok (.found (bareModule "package Foo::Bar/Baz")) ∧
      (modulePath (bareModule "package Foo::Bar/Baz")).IsBelow ∧
      (documentPath ⟨"p"⟩ ⟨⟨"p/a/v1.2.md"⟩, "text"⟩).IsBelow ∧
      ¬ (documentPath ⟨"p"⟩ ⟨⟨"p/..md"⟩, "text"⟩).IsBelow := by
  have hextract : Module.extract {} ⟨"lib/Foo.pm"⟩ "package Foo::Bar/Baz;\n" =
      .ok (.found (bareModule "package Foo::Bar/Baz")) := by cbv
  obtain ⟨hmodule, -, hdocument, -⟩ :=
    pages_below_output hextract ⟨"p"⟩ ⟨⟨"p/a/v1.2.md"⟩, "text"⟩
  obtain ⟨-, -, hbare, -⟩ := pages_below_output hextract ⟨"p"⟩ ⟨⟨"p/..md"⟩, "text"⟩
  refine ⟨hextract, hmodule.mpr ?_, hdocument.mpr (by decide +kernel), ?_⟩
  · unfold KeepsBelow
    decide +kernel
  · rw [hbare]
    decide +kernel

/-- A name with a path in it leads out of the output directory, upwards or from the root. -/
theorem modulePath_leads_out :
    (Module.extract {} ⟨"lib/Foo.pm"⟩ "package Foo/../../etc;\n" =
        .ok (.found (bareModule "package Foo/../../etc")) ∧
      (modulePath (bareModule "package Foo/../../etc")).components =
        [.name "Foo", .up, .up, .name "etc.md"]) ∧
      Module.extract {} ⟨"lib/Foo.pm"⟩ "package Foo::/etc/x;\n" =
        .ok (.found (bareModule "package Foo::/etc/x")) ∧
      (Path.join ⟨"doc"⟩ (modulePath (bareModule "package Foo::/etc/x"))).text = "/etc/x.md" := by
  refine ⟨⟨by cbv, by decide +kernel⟩, by cbv, by decide +kernel⟩

end MarkerDoc.Page
