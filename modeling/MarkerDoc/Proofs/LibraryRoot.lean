import MarkerDoc.Module
import MarkerDoc.Proofs.Location

/-!
# The directory from which a package loads

The library root of a module is found by going up from its file through the front of the package
name, last segment first.  Going up succeeds exactly when the directory ends with those segments,
and then leads to what stands before them; a name that differs on the way gives the whole ascent up,
and the root is the file's own directory.  A package that is looked for below its root, in a file
named for its last segment, is found where the module's own path leads.
-/

namespace MarkerDoc.Module

open MarkerDoc.Path (Component)

/-! ## Going up -/

theorem exists_ascend?
    {dir : Path} {front : List Component} {names : List String}
    (h : dir.components = front ++ (names.reverse.map Bytes.ofText).map .name) :
    ∃ root, ascend? dir names = some root ∧ root.components = front := by
  induction names generalizing dir with
  | nil => exact ⟨dir, rfl, by simpa using h⟩
  | cons name names ih =>
      rw [List.reverse_cons, List.map_append, List.map_append, ← List.append_assoc] at h
      have hfile : dir.fileName? = some (Bytes.ofText name) :=
        Path.fileName?_eq_some_iff.mpr ⟨_, h⟩
      obtain ⟨parent, hparent, hcomponents⟩ := Path.exists_parent?_of_fileName? hfile
      have hfront : parent.components = front ++ (names.reverse.map Bytes.ofText).map .name :=
        List.append_cancel_right (hcomponents.symm.trans h)
      obtain ⟨root, hroot, heq⟩ := ih hfront
      refine ⟨root, ?_, heq⟩
      rw [ascend?, hfile, hparent]
      simpa using hroot

theorem components_of_ascend?
    {dir root : Path} {names : List String} (h : ascend? dir names = some root) :
    dir.components = root.components ++ (names.reverse.map Bytes.ofText).map .name := by
  induction names generalizing dir with
  | nil =>
      obtain rfl : dir = root := by simpa [ascend?] using h
      simp
  | cons name names ih =>
      rw [ascend?] at h
      split at h
      · next found parent hfile hparent =>
          obtain ⟨rfl, hrest⟩ := Option.ite_none_right_eq_some.mp h
          obtain ⟨dir', hdir', hcomponents⟩ := Path.exists_parent?_of_fileName? hfile
          obtain rfl : parent = dir' := by simpa using hparent.symm.trans hdir'
          rw [hcomponents, ih hrest, List.reverse_cons, List.map_append, List.map_append,
            List.append_assoc]
          rfl
      · cases h

/-! ## The root -/

/-- The components of a directory as it is written for programs: the empty path is written as the
current directory. -/
def writtenComponents (dir : Path) : List Component :=
  if dir.text = "" then [.here] else dir.components

theorem components_orHere (dir : Path) : (orHere dir).components = writtenComponents dir := by
  unfold orHere writtenComponents
  by_cases hempty : dir.text = ""
  · rw [if_pos (by simp [Path.isEmpty, hempty]), if_pos hempty]
    decide +kernel
  · rw [if_neg (by simp [Path.isEmpty, hempty]), if_neg hempty]

theorem writtenComponents_congr {dir dir' : Path} (h : dir.components = dir'.components) :
    writtenComponents dir = writtenComponents dir' := by
  simp only [writtenComponents, ← Path.components_eq_nil_iff, h]

theorem text_libraryRoot_ne_empty (m : Module) : m.libraryRoot.text ≠ "" := by
  have horHere : ∀ dir, (orHere dir).text ≠ "" := by
    intro dir
    unfold orHere
    split
    · decide
    · next hempty => simpa [Path.isEmpty] using hempty
  unfold libraryRoot
  split
  · decide
  · split
    · decide
    · exact horHere _

/-- The case of the empty directory is no exception: there is nothing to go up through. -/
theorem libraryRoot_eq_orHere {m : Module} {dir : Path} (h : m.path.parent? = some dir) :
    m.libraryRoot = orHere ((ascend? dir m.package.segments.dropLast.reverse).getD dir) := by
  rw [libraryRoot, h]
  simp only
  split
  · next hempty =>
      obtain rfl : dir = ⟨""⟩ := by
        obtain ⟨text⟩ := dir
        simpa [Path.isEmpty] using hempty
      cases m.package.segments.dropLast.reverse with
      | nil => rfl
      | cons name names =>
          have hfile : Path.fileName? ⟨""⟩ = none := by decide +kernel
          rw [ascend?, hfile]
          rfl
  · rfl

/-- The root of a file that lies behind the front of the package name. -/
theorem components_libraryRoot_of_front
    {m : Module} {base : Path} {file : String}
    (h : m.path.components =
      base.components ++ (m.package.segments.dropLast.map Bytes.ofText ++ [file]).map .name) :
    m.libraryRoot.components = writtenComponents base := by
  rw [List.map_append, ← List.append_assoc] at h
  obtain ⟨dir, hparent, hcomponents⟩ :=
    Path.exists_parent?_of_fileName? (Path.fileName?_eq_some_iff.mpr ⟨_, h⟩)
  have hdir : dir.components =
      base.components ++
        (m.package.segments.dropLast.reverse.reverse.map Bytes.ofText).map .name := by
    rw [List.reverse_reverse]
    exact List.append_cancel_right (hcomponents.symm.trans h)
  obtain ⟨root, hroot, hbase⟩ := exists_ascend? hdir
  rw [libraryRoot_eq_orHere hparent, hroot, Option.getD_some, components_orHere]
  exact writtenComponents_congr hbase

/-- The root of a file whose directory does not end with the front of the package name. -/
theorem components_libraryRoot_of_not_suffix
    {m : Module} {dir : Path} {file : String}
    (h : m.path.components = dir.components ++ [.name file])
    (hfront : ¬ (m.package.segments.dropLast.map Bytes.ofText).map Component.name <:+
      dir.components) :
    m.libraryRoot.components = writtenComponents dir := by
  obtain ⟨parent, hparent, hcomponents⟩ :=
    Path.exists_parent?_of_fileName? (Path.fileName?_eq_some_iff.mpr ⟨_, h⟩)
  have hdir : parent.components = dir.components :=
    List.append_cancel_right (hcomponents.symm.trans h)
  have hascend : ascend? parent m.package.segments.dropLast.reverse = none := by
    rw [Option.eq_none_iff_forall_ne_some]
    intro root hroot
    have hsplit := components_of_ascend? hroot
    rw [List.reverse_reverse, hdir] at hsplit
    exact hfront ⟨root.components, hsplit.symm⟩
  rw [libraryRoot_eq_orHere hparent, hascend, Option.getD_none, components_orHere]
  exact writtenComponents_congr hdir

/-! ## Loading the package -/

theorem filter_moves_writtenComponents (dir : Path) :
    (writtenComponents dir).filter Component.moves = dir.components.filter Component.moves := by
  unfold writtenComponents
  split
  · next hempty =>
      rw [Path.components_eq_nil_iff.mpr hempty]
      rfl
  · rfl

theorem root_mem_writtenComponents_iff (dir : Path) :
    Component.root ∈ writtenComponents dir ↔ Component.root ∈ dir.components := by
  unfold writtenComponents
  split
  · next hempty =>
      rw [Path.components_eq_nil_iff.mpr hempty]
      simp
  · rfl

section

variable {root : Path} {names : List String} {last : String}
  (hplain : ∀ s ∈ names ++ [last], Page.IsPlain s)

include hplain

theorem isBelow_ofSegments : (Path.ofSegments (names ++ [last])).IsBelow :=
  Path.isBelow_of_components (Page.components_ofSegments_of_isPlain hplain) (by simp)

theorem components_join_ofSegments :
    (root.join (Path.ofSegments (names ++ [last]))).components =
      root.components ++ (names ++ [last]).map .name := by
  rw [(isBelow_ofSegments hplain).components_join, Page.components_ofSegments_of_isPlain hplain]

theorem exists_splitOn_join_ofSegments (hroot : root.text ≠ "") :
    ∃ front, Text.splitOn "/" (root.join (Path.ofSegments (names ++ [last]))).text =
      front ++ [last] := by
  obtain ⟨front, hfront⟩ :=
    Path.exists_splitOn_join hroot (isBelow_ofSegments hplain).isAbsolute_eq_false
  have hnames : ∀ s ∈ names, s ≠ "" := fun s hs => (hplain s (by simp [hs])).ne_empty
  obtain ⟨front', hfront'⟩ := Path.exists_splitOn_ofSegments hnames (hplain last (by simp))
  rw [hfront', ← List.append_assoc] at hfront
  exact ⟨_, hfront⟩

/-- Names taken from a directory as it is written lead where they lead from the directory. -/
theorem locate_join_ofSegments
    {d : Disk} {p base : Path} {place : List String} (hlocate : d.locate p = .ok place)
    (hp : p.components = base.components ++ (names ++ [last]).map .name)
    (hne : root.text ≠ "") (hroot : root.components = writtenComponents base)
    (hfits : d.fits (root.join (Path.ofSegments (names ++ [last]))) = true) :
    d.locate (root.join (Path.ofSegments (names ++ [last]))) = .ok place := by
  obtain ⟨front, hpieces⟩ := exists_splitOn_join_ofSegments hplain hne
  have hactive := (Path.component?_eq_name_iff.mp (hplain last (by simp)).name).2.1
  refine Disk.locate_of_moves hlocate ?_ ?_ hpieces hactive hfits
  · rw [components_join_ofSegments hplain, hroot, hp, List.filter_append, List.filter_append,
      filter_moves_writtenComponents]
  · rw [components_join_ofSegments hplain, hroot, hp, List.mem_append, List.mem_append,
      root_mem_writtenComponents_iff]

end

theorem writtenComponents_append
    {p base : Path} {rest : List Component} (h : p.components = base.components ++ rest) :
    writtenComponents base ++ rest =
      if base.text = "" then .here :: p.components else p.components := by
  unfold writtenComponents
  split
  · next hempty =>
      rw [h, Path.components_eq_nil_iff.mpr hempty]
      rfl
  · exact h.symm

/-- The path at which a package is looked for below a root. -/
def packagePath (m : Module) : Path :=
  Path.ofSegments (m.package.segments.dropLast.map Bytes.ofText ++
    [Bytes.ofText (m.package.segments.getLast?.getD "" ++ ".pm")])

/-- For a package name that ends with `last` behind `front`: where the file lies in `front` below a
directory, that directory is the root, and the package's own path from there leads to the file;
where the directory of the file does not end with `front`, it is the root itself. -/
theorem libraryRoot_loads_package
    {m : Module} {front : List String} {last : String}
    (hsegments : m.package.segments = front ++ [last]) :
    (∀ (base : Path) (file : String),
      m.path.components = base.components ++ (front.map Bytes.ofText ++ [file]).map .name →
        m.libraryRoot.components = writtenComponents base ∧
        (file = Bytes.ofText (last ++ ".pm") →
          (m.libraryRoot.join m.packagePath).components =
              (if base.text = "" then .here :: m.path.components else m.path.components) ∧
            ∀ (d : Disk) (place : List String), d.locate m.path = .ok place →
              d.fits (m.libraryRoot.join m.packagePath) = true →
              d.locate (m.libraryRoot.join m.packagePath) = .ok place)) ∧
      (∀ (dir : Path) (file : String), m.path.components = dir.components ++ [.name file] →
        ¬ (front.map Bytes.ofText).map Component.name <:+ dir.components →
          m.libraryRoot.components = writtenComponents dir) ∧
      m.libraryRoot.text ≠ "" := by
  have hfront : m.package.segments.dropLast = front := by rw [hsegments, List.dropLast_concat]
  have hne := text_libraryRoot_ne_empty m
  refine ⟨?_, ?_, hne⟩
  · intro base file hpath
    have hroot : m.libraryRoot.components = writtenComponents base := by
      apply components_libraryRoot_of_front
      rw [hfront]
      exact hpath
    refine ⟨hroot, ?_⟩
    rintro rfl
    have hplain : ∀ s ∈ front.map Bytes.ofText ++ [Bytes.ofText (last ++ ".pm")],
        Page.IsPlain s := by
      intro s hs
      apply @Page.isPlain_of_mem_components m.path
      rw [hpath]
      exact List.mem_append_right _ (List.mem_map_of_mem hs)
    rw [packagePath, hfront, hsegments, List.getLast?_concat, Option.getD_some]
    constructor
    · rw [components_join_ofSegments hplain, hroot]
      exact writtenComponents_append hpath
    · intro d place hlocate hfits
      exact locate_join_ofSegments hplain hlocate hpath hne hroot hfits
  · intro dir file hpath hsuffix
    rw [← hfront] at hsuffix
    exact components_libraryRoot_of_not_suffix hpath hsuffix

/-- A file below the working directory is found again from there, and a directory that only ends
like the package name is not left. -/
theorem libraryRoot_loads_package_here_and_stays :
    (let m : Module := ⟨⟨"Foo//Bar.pm"⟩, ⟨"package Foo::Bar", "", 1⟩, [], .core⟩
     let d : Disk := ⟨.dir "Foo" (.file "Bar.pm" .empty .nil) .nil, [], some 4095⟩
     m.libraryRoot.components = [.here] ∧
       d.locate (m.libraryRoot.join m.packagePath) = .ok ["Foo", "Bar.pm"]) ∧
    (let m : Module := ⟨⟨"/lib/Other/Foo/Bar.pm"⟩, ⟨"package App::Foo::Bar", "", 1⟩, [], .core⟩
     m.libraryRoot.components = [.root, .name "lib", .name "Other", .name "Foo"]) := by
  constructor
  · intro m d
    have hsegments : m.package.segments = ["Foo"] ++ ["Bar"] := by decide +kernel
    have hpath : m.path.components =
        Path.components ⟨""⟩ ++ (["Foo"].map Bytes.ofText ++ ["Bar.pm"]).map .name := by
      decide +kernel
    obtain ⟨hroot, hload⟩ := (libraryRoot_loads_package hsegments).1 ⟨""⟩ "Bar.pm" hpath
    have hlocate : d.locate m.path = .ok ["Foo", "Bar.pm"] := by decide +kernel
    exact ⟨hroot, (hload (by decide +kernel)).2 d _ hlocate (by decide +kernel)⟩
  · intro m
    have hsegments : m.package.segments = ["App", "Foo"] ++ ["Bar"] := by decide +kernel
    have hpath : m.path.components =
        Path.components ⟨"/lib/Other/Foo"⟩ ++ [.name "Bar.pm"] := by decide +kernel
    have hroot := (libraryRoot_loads_package hsegments).2.1 ⟨"/lib/Other/Foo"⟩ "Bar.pm" hpath
      (by decide +kernel)
    rw [hroot]
    decide +kernel

end MarkerDoc.Module
