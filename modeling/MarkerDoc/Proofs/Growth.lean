import MarkerDoc.Proofs.Discovery
import MarkerDoc.Proofs.Writing

/-!
# Reading a disk that has grown below a directory

When a disk has grown below one directory only, everything outside that directory reads as before:
the settings, the root of a project, and the files that a command finds once those below the
directory are left out.

There is one exception.  A path can be too long to be followed; then it cannot be told to lie below
the directory, and it stays among the files that are found.  Such a file cannot be read.
-/

namespace MarkerDoc

theorem Path.component?_eq_up_iff {s : String} : component? s = some .up ↔ s = ".." := by
  unfold component?
  split_ifs with hidle heq
  · simp only [false_iff]
    rintro rfl
    exact absurd hidle (by decide)
  · simp [heq]
  · simp [heq]

theorem Path.up_mem_components_iff (p : Path) :
    .up ∈ p.components ↔ ".." ∈ Text.splitOn "/" p.text := by
  have hlead : .up ∉ leadComponents p.pieces.lead := by
    unfold leadComponents
    split <;> simp
  have hdots : ".." ∉ p.pieces.lead.toList := by
    unfold pieces Pieces.ofList
    split <;> simp
  have hbody : .up ∈ p.pieces.body.filterMap component? ↔ ".." ∈ p.pieces.body := by
    simp [List.mem_filterMap, component?_eq_up_iff]
  have hpieces : Text.splitOn "/" p.text = p.pieces.lead.toList ++ p.pieces.body :=
    (Pieces.toList_ofList _).symm
  rw [components, hpieces, List.mem_append, List.mem_append, hbody]
  simp [hlead, hdots]

namespace Disk

/-! ## The files of a command -/

theorem projectRoot_of_dir
    {d : Disk} {p : Path} {found : List String} (hp : d.locate p = .ok found)
    (hdir : d.node? found = some .dir) : d.projectRoot p = p := by
  have hfile : ¬ d.isFile p = true := by
    rw [isFile_iff]
    rintro ⟨found', content, hp', hnode⟩
    obtain rfl : found = found' := by simpa using hp.symm.trans hp'
    simp [hdir] at hnode
  rw [projectRoot, if_neg hfile]

theorem resolve?_eq_some_iff {d : Disk} {settings : ExtractSettings} {p : Path} {inputs : Inputs} :
    d.resolve? settings p = some inputs ↔
      inputs.root = d.projectRoot p ∧ ∃ found, d.locate p = .ok found ∧
        ((∃ content, d.node? found = some (.file content) ∧ inputs.files = [p]) ∨
          ∃ inside, d.top.get? found = some (.dir inside) ∧
            inputs.files = d.collectFiles settings p inside) := by
  obtain ⟨root, files⟩ := inputs
  rw [resolve?]
  cases hentry : d.entry p with
  | error cause =>
      refine iff_of_false (by simp) ?_
      rintro ⟨-, found, hp, ⟨content, hnode, -⟩ | ⟨inside, hget, -⟩⟩
      · rw [entry_eq_ok_iff.mpr ⟨found, hp, Listing.node?_eq_file_iff.mp hnode⟩] at hentry
        cases hentry
      · rw [entry_eq_ok_iff.mpr ⟨found, hp, hget⟩] at hentry
        cases hentry
  | ok entry =>
      obtain ⟨found, hp, hget⟩ := entry_eq_ok_iff.mp hentry
      cases entry with
      | file content =>
          have hnode : d.node? found = some (.file content) := Listing.node?_eq_file_iff.mpr hget
          simp [hp, hnode, hget, eq_comm]
      | dir inside =>
          have hnode : d.node? found = some .dir := Listing.node?_eq_dir_iff.mpr ⟨inside, hget⟩
          simp [hp, hnode, hget, projectRoot_of_dir hp hnode, eq_comm]

theorem inputsFor_eq_ok_iff
    {d : Disk} {settings : ExtractSettings} {p dir : Path} {inputs : Inputs} :
    d.inputsFor settings p (some dir) = .ok inputs ↔
      inputs.files ≠ [] ∧ ∃ files, d.resolve? settings p = some ⟨inputs.root, files⟩ ∧
        inputs.files = d.excludeBelow dir files := by
  obtain ⟨root, files⟩ := inputs
  rw [inputsFor]
  cases d.resolve? settings p with
  | none => simp
  | some resolved =>
      obtain ⟨root', files'⟩ := resolved
      dsimp only
      split_ifs with hempty
      · simp_all
      · have hne : d.excludeBelow dir files' ≠ [] := by simpa using hempty
        simp only [Except.ok.injEq, Inputs.mk.injEq, Option.some.injEq]
        constructor
        · rintro ⟨rfl, rfl⟩
          exact ⟨hne, files', ⟨rfl, rfl⟩, rfl⟩
        · rintro ⟨-, _, ⟨rfl, rfl⟩, rfl⟩
          exact ⟨rfl, rfl⟩

theorem fits_of_locate {d : Disk} {p : Path} {found : List String} (h : d.locate p = .ok found) :
    d.fits p = true :=
  (checkPath_eq_ok_iff.mp (locate_eq_ok_iff.mp h).1).2.2

theorem content?_append
    {d : Disk} {found : List String} {inside : Listing}
    (hget : d.top.get? found = some (.dir inside)) (names : List String) :
    d.content? (found ++ names) = inside.content? names :=
  congrArg (·.bind Node.content?) (Listing.node?_append_of_get? hget names)

section

variable {d : Disk} {settings : ExtractSettings} {p dir : Path} {found : List String}

/-- What a search finds is where its path leads, if it can be followed. -/
theorem locate_of_found
    (hwf : d.top.WellFormed) (hp : d.locate p = .ok found) {names : List String}
    (hfile : (d.content? (found ++ names)).isSome) (hfits : d.fits (p.through names) = true) :
    d.locate (p.through names) = .ok (found ++ names) :=
  locate_through hwf hp (Option.isSome_of_isSome_bind hfile) hfits

/-- The path to a directory leads to it unless it is too long. -/
theorem isDir_through
    (hwf : d.top.WellFormed) (hp : d.locate p = .ok found) {names : List String}
    (hnode : d.node? (found ++ names) = some .dir) :
    d.isDir (p.through names) = d.fits (p.through names) := by
  rw [Bool.eq_iff_iff, isDir_iff]
  constructor
  · rintro ⟨place, hlocate, -⟩
    exact fits_of_locate hlocate
  · intro hfits
    exact ⟨_, locate_through hwf hp (Option.isSome_of_eq_some hnode) hfits, hnode⟩

/-- The fronts of a path that can be followed can be followed. -/
theorem fits_through_of_prefix
    (hwf : d.top.WellFormed) {front names : List String}
    (hsome : (d.node? (found ++ names)).isSome) (hfront : front <+: names)
    (hfits : d.fits (p.through names) = true) : d.fits (p.through front) = true := by
  obtain ⟨behind, rfl⟩ := hfront
  have hplain : ∀ s ∈ behind, Page.IsPlain s := fun s hs =>
    (hwf.isFileName_of_isSome hsome (by simp [hs])).toIsPlain
  obtain ⟨rest, hrest⟩ := Path.exists_text_through hplain (p.through front)
  apply fits_of_length_le hfits
  rw [Path.through_append, hrest, String.length_append]
  exact Nat.le_add_right _ _

variable {inside : Listing}

/-- A search finds a file whose path can be followed if it stands behind directories that are
searched. -/
theorem found_iff_of_fits
    (hwf : d.top.WellFormed) (hp : d.locate p = .ok found)
    (hget : d.top.get? found = some (.dir inside)) {names : List String}
    (hfits : d.fits (p.through names) = true) :
    Listing.Found settings d.isDir inside p names ↔
      (d.content? (found ++ names)).isSome ∧
        (∀ s ∈ names.dropLast, settings.searches s = true) ∧
        settings.Recognizes (p.through names) := by
  by_cases hsome : (d.node? (found ++ names)).isSome
  · rw [content?_append hget]
    apply Listing.found_iff_of_open
    intro front hfront hnode
    rw [← Listing.node?_append_of_get? hget] at hnode
    rw [isDir_through hwf hp hnode]
    exact fits_through_of_prefix hwf hsome hfront hfits
  · refine iff_of_false (fun h => hsome ?_) (fun h => hsome (Option.isSome_of_isSome_bind h.1))
    rw [node?, Listing.node?_append_of_get? hget]
    exact h.isSome_node?

theorem mem_collectFiles_iff_of_fits
    (hwf : d.top.WellFormed) (hp : d.locate p = .ok found)
    (hget : d.top.get? found = some (.dir inside)) {f : Path} (hfits : d.fits f = true) :
    f ∈ d.collectFiles settings p inside ↔
      ∃ names, f = p.through names ∧ (d.content? (found ++ names)).isSome ∧
        (∀ s ∈ names.dropLast, settings.searches s = true) ∧ settings.Recognizes f := by
  rw [mem_collectFiles_iff (hwf.get? hget)]
  constructor
  · rintro ⟨names, hfound, rfl⟩
    exact ⟨names, rfl, (found_iff_of_fits hwf hp hget hfits).mp hfound⟩
  · rintro ⟨names, rfl, hrest⟩
    exact ⟨names, (found_iff_of_fits hwf hp hget hfits).mpr hrest, rfl⟩

/-- The files of a command lie in its project's directory and not below the output directory. -/
theorem inputsFor_spec
    (hwf : d.top.WellFormed) {inputs : Inputs}
    (h : d.inputsFor settings p (some dir) = .ok inputs) :
    inputs.root = d.projectRoot p ∧ (∃ found, d.locate p = .ok found) ∧
      ∃ root, d.locate inputs.root = .ok root ∧
        ∀ f ∈ inputs.files, ¬ d.LeadsBelow dir f ∧
          (d.fits f = true → ∃ inner, d.locate f = .ok (root ++ inner)) := by
  obtain ⟨-, files, hresolve, hfiles⟩ := inputsFor_eq_ok_iff.mp h
  obtain ⟨hroot, found, hp, hcases⟩ := resolve?_eq_some_iff.mp hresolve
  dsimp only at hroot hcases
  refine ⟨hroot, ⟨found, hp⟩, ?_⟩
  rw [hroot, hfiles]
  rcases hcases with ⟨content, hnode, rfl⟩ | ⟨inside, hget, rfl⟩
  · obtain ⟨root, name, rfl, hlocate⟩ := locate_projectRoot hp hnode
    refine ⟨root, hlocate, ?_⟩
    intro f hf
    obtain ⟨hmem, hout⟩ := mem_excludeBelow_iff.mp hf
    obtain rfl := List.mem_singleton.mp hmem
    exact ⟨hout, fun _ => ⟨[name], hp⟩⟩
  · have hnode : d.node? found = some .dir := Listing.node?_eq_dir_iff.mpr ⟨inside, hget⟩
    rw [projectRoot_of_dir hp hnode]
    refine ⟨found, hp, ?_⟩
    intro f hf
    obtain ⟨hmem, hout⟩ := mem_excludeBelow_iff.mp hf
    refine ⟨hout, fun hfits => ?_⟩
    obtain ⟨names, rfl, hfile, -⟩ := (mem_collectFiles_iff_of_fits hwf hp hget hfits).mp hmem
    exact ⟨names, locate_of_found hwf hp hfile hfits⟩

end

theorem exists_locate_of_read {d : Disk} {p : Path} {text : String} (h : d.read p = .ok text) :
    ∃ found, d.locate p = .ok found := by
  rw [read, bind_eq_ok_iff] at h
  obtain ⟨bytes, h, -⟩ := h
  rw [readBytes, bind_eq_ok_iff] at h
  obtain ⟨e, h, -⟩ := h
  obtain ⟨found, hlocate, -⟩ := entry_eq_ok_iff.mp h
  exact ⟨found, hlocate⟩

theorem exists_locate_of_settingsAt
    {d : Disk} {file : Path} {settings : Settings} (h : d.settingsAt file = .ok settings) :
    ∃ found, d.locate file = .ok found := by
  unfold settingsAt at h
  split at h
  · cases h
  · next text hread => exact exists_locate_of_read hread

theorem settingsFor_some_iff {d : Disk} {file p : Path} {settings : Settings} :
    d.settingsFor (some file) p = .ok settings ↔ d.settingsAt file = .ok settings := by
  unfold settingsFor
  dsimp only
  generalize d.settingsAt file = result
  cases result <;> simp

theorem settingsFor_none_iff {d : Disk} {p : Path} {settings : Settings} :
    d.settingsFor none p = .ok settings ↔ d.settingsOf (d.projectRoot p) = .ok settings := by
  unfold settingsFor
  dsimp only
  generalize d.settingsOf (d.projectRoot p) = result
  cases result <;> simp

theorem isFile_join_iff
    {d : Disk} {root : Path} {place : List String} (hroot : d.locate root = .ok place)
    {name : String} (hname : IsFileName name) :
    d.isFile (root.join ⟨name⟩) = true ↔
      d.checkPath (root.join ⟨name⟩) = .ok () ∧ (d.content? (place ++ [name])).isSome := by
  constructor
  · intro h
    obtain ⟨found, content, hlocate, hnode⟩ := isFile_iff.mp h
    obtain rfl := locate_join_eq hroot hname.toIsPlain hlocate
    exact ⟨(locate_eq_ok_iff.mp hlocate).1, by simp [content?_eq_some_iff.mpr hnode]⟩
  · rintro ⟨hcheck, hfile⟩
    obtain ⟨content, hcontent⟩ := Option.isSome_iff_exists.mp hfile
    have hnode := content?_eq_some_iff.mp hcontent
    have hsome : (d.node? (place ++ [name])).isSome := Option.isSome_of_eq_some hnode
    exact isFile_iff.mpr ⟨_, content, locate_join_of_isSome hroot hname hcheck hsome, hnode⟩

/-! ## Paths that led somewhere already -/

/-- A path that never goes up leads onwards from where it starts. -/
theorem prefix_of_follows
    {d : Disk} {start place : List String} {pieces : List String} (hup : ".." ∉ pieces)
    (h : d.Follows start pieces place) : start <+: place := by
  induction pieces generalizing start with
  | nil => exact (follows_nil_iff.mp h) ▸ List.prefix_rfl
  | cons piece pieces ih =>
      obtain ⟨next, henter, hrest⟩ := follows_cons_iff.mp h
      obtain ⟨-, hstep⟩ := enter_eq_ok_iff.mp henter
      have hnext := ih (fun hmem => hup (List.mem_cons_of_mem _ hmem)) hrest
      cases hstep with
      | stay _ => exact hnext
      | up => simp at hup
      | into _ _ _ => exact (List.prefix_append start [piece]).trans hnext

/-- A path that never goes up led to a place already before a disk had grown, if something was
there. -/
theorem Extends.follows_of_isSome
    {d d' : Disk} (h : d.Extends d') {start place : List String} {pieces : List String}
    (hup : ".." ∉ pieces) (hfollows : d'.Follows start pieces place)
    (hsome : (d.node? place).isSome) : d.Follows start pieces place := by
  induction pieces generalizing start with
  | nil => exact hfollows
  | cons piece pieces ih =>
      obtain ⟨next, henter, hrest⟩ := follows_cons_iff.mp hfollows
      obtain ⟨hdir, hstep⟩ := enter_eq_ok_iff.mp henter
      have hup' : ".." ∉ pieces := fun hmem => hup (List.mem_cons_of_mem _ hmem)
      have hnext : (d.node? next).isSome :=
        Listing.isSome_node?_of_prefix hsome (prefix_of_follows hup' hrest)
      have hstart : (d.node? start).isSome :=
        Listing.isSome_node?_of_prefix hsome (prefix_of_follows hup hfollows)
      refine follows_cons_iff.mpr ⟨next, enter_eq_ok_iff.mpr ⟨h.dir_of_isSome hdir hstart, ?_⟩,
        ih hup' hrest⟩
      cases hstep with
      | stay hidle => exact .stay hidle
      | up => exact .up
      | into hname hsize _ => exact .into hname hsize hnext

theorem Extends.locate_of_isSome
    {d d' : Disk} (h : d.Extends d') {p : Path} {place : List String}
    (hup : Path.Component.up ∉ p.components) (hlocate : d'.locate p = .ok place)
    (hsome : (d.node? place).isSome) : d.locate p = .ok place := by
  obtain ⟨hcheck, hfollows⟩ := locate_eq_ok_iff.mp hlocate
  rw [h.origin] at hfollows
  rw [h.checkPath] at hcheck
  rw [Path.up_mem_components_iff] at hup
  exact locate_eq_ok_iff.mpr ⟨hcheck, h.follows_of_isSome hup hfollows hsome⟩

/-- The directory next to something that is there led to its place already. -/
theorem Extends.locate_join_of_isSome
    {d d' : Disk} (h : d.Extends d') {p : Path} {place place' : List String}
    (hp : d.locate p = .ok place) {name : String} (hname : IsFileName name)
    (hlocate : d'.locate (p.join ⟨name⟩) = .ok place') (hsome : (d.node? place').isSome) :
    d.locate (p.join ⟨name⟩) = .ok place' := by
  obtain rfl := locate_join_eq (h.locate hp) hname.toIsPlain hlocate
  have hcheck := (locate_eq_ok_iff.mp hlocate).1
  rw [h.checkPath] at hcheck
  exact Disk.locate_join_of_isSome hp hname hcheck hsome

/-! ## Disks that have grown below a directory -/

/-- A disk that has grown below a directory, which is at a place afterwards.  If something was at
that place before, the directory was. -/
structure GrownBelow (d d' : Disk) (dir : Path) (place : List String) : Prop where
  wellFormed : d.top.WellFormed
  wellFormed' : d'.top.WellFormed
  grown : d.Extends d'
  located : d'.locate dir = .ok place
  isDir : d'.node? place = some .dir
  outside : ∀ p, ¬ place <+: p → d'.content? p = d.content? p
  fresh : (d.node? place).isSome → d.locate dir = .ok place

namespace GrownBelow

variable {d d' : Disk} {dir : Path} {place : List String}

theorem leadsBelow_iff
    (h : GrownBelow d d' dir place) {p : Path} {found : List String}
    (hp : d.locate p = .ok found) : d.LeadsBelow dir p ↔ place <+: found := by
  constructor
  · rintro ⟨place', inner, hdir, hinner⟩
    have heq : place' = place := by simpa using (h.grown.locate hdir).symm.trans h.located
    have hfound : place' ++ inner = found := by simpa using hinner.symm.trans hp
    exact ⟨inner, heq ▸ hfound⟩
  · intro hbelow
    have hsome := Listing.isSome_node?_of_prefix (isSome_node?_of_locate hp) hbelow
    exact (Disk.leadsBelow_iff (h.fresh hsome) hp).mpr hbelow

theorem leadsBelow_iff'
    (h : GrownBelow d d' dir place) {p : Path} {found : List String}
    (hp : d.locate p = .ok found) : d'.LeadsBelow dir p ↔ d.LeadsBelow dir p := by
  rw [h.leadsBelow_iff hp, Disk.leadsBelow_iff h.located (h.grown.locate hp)]

theorem node?_eq
    (h : GrownBelow d d' dir place) {p : List String} (hsome : (d.node? p).isSome)
    (hout : ¬ place <+: p) : d'.node? p = d.node? p := by
  obtain ⟨node, hnode⟩ := Option.isSome_iff_exists.mp hsome
  rw [hnode]
  cases node with
  | dir => exact h.grown.dir hnode
  | file content =>
      rw [← content?_eq_some_iff] at hnode ⊢
      rw [h.outside p hout, hnode]

theorem read_eq
    (h : GrownBelow d d' dir place) {p : Path} {found : List String}
    (hp : d.locate p = .ok found) (hout : ¬ place <+: found) : d'.read p = d.read p :=
  read_congr hp (h.grown.locate hp) (h.node?_eq (isSome_node?_of_locate hp) hout)

theorem isFile_eq
    (h : GrownBelow d d' dir place) {p : Path} {found : List String}
    (hp : d.locate p = .ok found) : d'.isFile p = d.isFile p := by
  rw [Bool.eq_iff_iff]
  constructor
  · intro hfile
    obtain ⟨found', content, hp', hnode⟩ := isFile_iff.mp hfile
    obtain rfl : found = found' := by simpa using (h.grown.locate hp).symm.trans hp'
    obtain ⟨node, hbefore⟩ := Option.isSome_iff_exists.mp (isSome_node?_of_locate hp)
    cases node with
    | dir => simp [h.grown.dir hbefore] at hnode
    | file content' => exact isFile_iff.mpr ⟨found, content', hp, hbefore⟩
  · exact h.grown.isFile

theorem projectRoot_eq
    (h : GrownBelow d d' dir place) {p : Path} {found : List String}
    (hp : d.locate p = .ok found) : d'.projectRoot p = d.projectRoot p := by
  rw [projectRoot, projectRoot, h.isFile_eq hp]

theorem collectFiles_subset
    (h : GrownBelow d d' dir place) {settings : ExtractSettings} {p : Path} {found : List String}
    (hp : d.locate p = .ok found) {inside inside' : Listing}
    (hget : d.top.get? found = some (.dir inside))
    (hget' : d'.top.get? found = some (.dir inside')) :
    d.collectFiles settings p inside ⊆ d'.collectFiles settings p inside' := by
  intro f hf
  obtain ⟨names, hfound, rfl⟩ := (mem_collectFiles_iff (h.wellFormed.get? hget)).mp hf
  refine (mem_collectFiles_iff (h.wellFormed'.get? hget')).mpr ⟨names, hfound.mono ?_ ?_, rfl⟩
  · intro content hnode
    rw [← Listing.node?_append_of_get? hget] at hnode
    obtain ⟨content', hnode'⟩ := h.grown.file hnode
    exact ⟨content', Listing.node?_append_of_get? hget' names ▸ hnode'⟩
  · intro front _ hnode
    rw [← Listing.node?_append_of_get? hget] at hnode
    have hnode' := h.grown.dir hnode
    refine ⟨Listing.node?_append_of_get? hget' front ▸ hnode', ?_⟩
    rw [isDir_through h.wellFormed hp hnode,
      isDir_through h.wellFormed' (h.grown.locate hp) hnode', h.grown.fits]

/-- What is left out of a search now was left out before, and nothing else is new, but for paths
that are too long. -/
theorem mem_excludeBelow_iff
    (h : GrownBelow d d' dir place) {settings : ExtractSettings} {p : Path} {found : List String}
    (hp : d.locate p = .ok found) {inside inside' : Listing}
    (hget : d.top.get? found = some (.dir inside))
    (hget' : d'.top.get? found = some (.dir inside')) {f : Path} (hfits : d.fits f = true) :
    f ∈ d'.excludeBelow dir (d'.collectFiles settings p inside') ↔
      f ∈ d.excludeBelow dir (d.collectFiles settings p inside) := by
  have hfits' : d'.fits f = true := by rw [h.grown.fits, hfits]
  rw [Disk.mem_excludeBelow_iff, Disk.mem_excludeBelow_iff]
  constructor
  · rintro ⟨hf, hout⟩
    obtain ⟨names, rfl, hfile, hrest⟩ :=
      (mem_collectFiles_iff_of_fits h.wellFormed' (h.grown.locate hp) hget' hfits').mp hf
    have hlocate' := locate_of_found h.wellFormed' (h.grown.locate hp) hfile hfits'
    rw [Disk.leadsBelow_iff h.located hlocate'] at hout
    rw [h.outside _ hout] at hfile
    rw [h.leadsBelow_iff (locate_of_found h.wellFormed hp hfile hfits)]
    refine ⟨?_, hout⟩
    exact (mem_collectFiles_iff_of_fits h.wellFormed hp hget hfits).mpr ⟨names, rfl, hfile, hrest⟩
  · rintro ⟨hf, hout⟩
    refine ⟨h.collectFiles_subset hp hget hget' hf, ?_⟩
    obtain ⟨names, rfl, hfile, -⟩ :=
      (mem_collectFiles_iff_of_fits h.wellFormed hp hget hfits).mp hf
    rwa [h.leadsBelow_iff' (locate_of_found h.wellFormed hp hfile hfits)]

theorem excludeBelow_subset
    (h : GrownBelow d d' dir place) {settings : ExtractSettings} {p : Path} {found : List String}
    (hp : d.locate p = .ok found) {inside inside' : Listing}
    (hget : d.top.get? found = some (.dir inside))
    (hget' : d'.top.get? found = some (.dir inside')) :
    d.excludeBelow dir (d.collectFiles settings p inside) ⊆
      d'.excludeBelow dir (d'.collectFiles settings p inside') := by
  intro f hf
  by_cases hfits : d.fits f = true
  · exact (h.mem_excludeBelow_iff hp hget hget' hfits).mpr hf
  · refine Disk.mem_excludeBelow_iff.mpr ⟨?_, ?_⟩
    · exact h.collectFiles_subset hp hget hget' (Disk.mem_excludeBelow_iff.mp hf).1
    · rintro ⟨_, _, -, hlocate⟩
      exact hfits (h.grown.fits f ▸ fits_of_locate hlocate)

theorem filter_excludeBelow_eq
    (h : GrownBelow d d' dir place) {settings : ExtractSettings} {p : Path} {found : List String}
    (hp : d.locate p = .ok found) {inside inside' : Listing}
    (hget : d.top.get? found = some (.dir inside))
    (hget' : d'.top.get? found = some (.dir inside')) :
    (d'.excludeBelow dir (d'.collectFiles settings p inside')).filter d.fits =
      (d.excludeBelow dir (d.collectFiles settings p inside)).filter d.fits := by
  have hdir : p.text ≠ "" := (checkPath_eq_ok_iff.mp (locate_eq_ok_iff.mp hp).1).2.1
  apply eq_of_sublist_collectFiles (h.wellFormed'.get? hget') (h.wellFormed.get? hget) hdir
  · exact List.filter_sublist.trans (d'.excludeBelow_sublist _)
  · exact List.filter_sublist.trans (d.excludeBelow_sublist _)
  · intro f
    rw [List.mem_filter, List.mem_filter]
    apply and_congr_left
    exact h.mem_excludeBelow_iff hp hget hget'

/-- A command finds the same files as before, but for paths that are too long. -/
theorem exists_inputsFor
    (h : GrownBelow d d' dir place) {settings : ExtractSettings} {p : Path} {inputs : Inputs}
    (hinputs : d.inputsFor settings p (some dir) = .ok inputs) :
    ∃ inputs', d'.inputsFor settings p (some dir) = .ok inputs' ∧ inputs'.root = inputs.root ∧
      inputs'.files.filter d.fits = inputs.files.filter d.fits ∧ inputs.files ⊆ inputs'.files := by
  obtain ⟨hne, files, hresolve, hfiles⟩ := inputsFor_eq_ok_iff.mp hinputs
  obtain ⟨hroot, found, hp, hcases⟩ := resolve?_eq_some_iff.mp hresolve
  have hp' := h.grown.locate hp
  dsimp only at hroot hcases
  have hroot' : inputs.root = d'.projectRoot p := hroot.trans (h.projectRoot_eq hp).symm
  rcases hcases with ⟨content, hnode, rfl⟩ | ⟨inside, hget, rfl⟩
  · -- A single file is not left out now, as it was not before.
    obtain ⟨content', hnode'⟩ := h.grown.file hnode
    have hsame : d'.excludeBelow dir [p] = d.excludeBelow dir [p] := by
      have hall := (List.sublist_singleton.mp (d.excludeBelow_sublist [p])).resolve_left
        (hfiles ▸ hne)
      rw [hall, excludeBelow_singleton_eq_iff, h.leadsBelow_iff' hp]
      exact excludeBelow_singleton_eq_iff.mp hall
    refine ⟨inputs, inputsFor_eq_ok_iff.mpr ⟨hne, [p], ?_, by rw [hfiles, hsame]⟩, rfl, rfl,
      List.Subset.refl _⟩
    exact resolve?_eq_some_iff.mpr ⟨hroot', found, hp', .inl ⟨content', hnode', rfl⟩⟩
  · -- A search may find more now, but what is new is left out or too long.
    obtain ⟨inside', hget'⟩ := Listing.node?_eq_dir_iff.mp
      (h.grown.dir (Listing.node?_eq_dir_iff.mpr ⟨inside, hget⟩))
    have hsubset : d.excludeBelow dir (d.collectFiles settings p inside) ⊆
        d'.excludeBelow dir (d'.collectFiles settings p inside') :=
      h.excludeBelow_subset hp hget hget'
    rw [hfiles] at hne ⊢
    refine ⟨⟨inputs.root, d'.excludeBelow dir (d'.collectFiles settings p inside')⟩,
      inputsFor_eq_ok_iff.mpr ⟨?_, _, ?_, rfl⟩, rfl, h.filter_excludeBelow_eq hp hget hget',
      hsubset⟩
    · exact fun hnil => hne (List.subset_nil.mp (hnil ▸ hsubset))
    · exact resolve?_eq_some_iff.mpr ⟨hroot', found, hp', .inr ⟨inside', hget', rfl⟩⟩

/-! ## Settings -/

theorem settingsAt_eq
    (h : GrownBelow d d' dir place) {file : Path} {found : List String}
    (hfile : d.locate file = .ok found) (hout : ¬ place <+: found) :
    d'.settingsAt file = d.settingsAt file := by
  rw [settingsAt, settingsAt, h.read_eq hfile hout]

theorem content?_place
    (h : GrownBelow d d' dir place) : d.content? place = none ∧ d'.content? place = none := by
  constructor
  · rw [Option.eq_none_iff_forall_ne_some]
    intro content hcontent
    obtain ⟨content', hfile⟩ := h.grown.file (content?_eq_some_iff.mp hcontent)
    simp [h.isDir] at hfile
  · exact congrArg (·.bind Node.content?) h.isDir

/-- The settings file of a project is not below the directory if the project's root is not: at most
the directory itself could have its name. -/
theorem settingsOf_eq
    (h : GrownBelow d d' dir place) {root : Path} {found : List String}
    (hroot : d.locate root = .ok found) (hout : ¬ place <+: found) :
    d'.settingsOf root = d.settingsOf root := by
  have hname : IsFileName settingsName := by decide +kernel
  have hbelow : place <+: found ++ [settingsName] → place = found ++ [settingsName] := fun hbelow =>
    (List.prefix_concat_iff.mp hbelow).resolve_right hout
  have hcontent : d'.content? (found ++ [settingsName]) = d.content? (found ++ [settingsName]) := by
    by_cases hfile : place <+: found ++ [settingsName]
    · rw [← hbelow hfile, h.content?_place.1, h.content?_place.2]
    · exact h.outside _ hfile
  have hisFile : d'.isFile (root.join ⟨settingsName⟩) = d.isFile (root.join ⟨settingsName⟩) := by
    rw [Bool.eq_iff_iff, isFile_join_iff hroot hname, isFile_join_iff (h.grown.locate hroot) hname,
      hcontent, h.grown.checkPath]
  rw [settingsOf, settingsOf, hisFile]
  split_ifs with hfile
  · obtain ⟨found', content, hlocate, hnode⟩ := isFile_iff.mp hfile
    obtain rfl := locate_join_eq hroot hname.toIsPlain hlocate
    apply h.settingsAt_eq hlocate
    intro hfound
    rw [← hbelow hfound, ← content?_eq_some_iff, h.content?_place.1] at hnode
    cases hnode
  · rfl

theorem settingsFor_eq
    (h : GrownBelow d d' dir place) {explicit : Option Path} {p : Path} {found root : List String}
    {settings : Settings} (hp : d.locate p = .ok found)
    (hroot : d.locate (d.projectRoot p) = .ok root) (hout : ¬ place <+: root)
    (hexplicit : ∀ file, explicit = some file → ¬ d.LeadsBelow dir file)
    (hsettings : d.settingsFor explicit p = .ok settings) :
    d'.settingsFor explicit p = .ok settings := by
  cases explicit with
  | none =>
      rw [settingsFor_none_iff] at hsettings ⊢
      rwa [h.projectRoot_eq hp, h.settingsOf_eq hroot hout]
  | some file =>
      rw [settingsFor_some_iff] at hsettings ⊢
      obtain ⟨found', hfile⟩ := exists_locate_of_settingsAt hsettings
      have hout' := hexplicit file rfl
      rw [h.leadsBelow_iff hfile] at hout'
      rwa [h.settingsAt_eq hfile hout']

end GrownBelow

end Disk

end MarkerDoc
