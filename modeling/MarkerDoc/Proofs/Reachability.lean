import MarkerDoc.Proofs.Growth

/-!
# What a search reaches

A search goes from directory to directory and takes the entries in the order in which it is given
them.  That order is left open here: two trees may have the same entries in different orders, in any
of their directories.  Such trees have the same at every place, so a search finds the same files in
them, and sorting brings those into the same list.

A directory is passed over if its name is hidden or excluded, and also if the bytes of its name are
no text, whatever it holds.

The files below another directory are told by the names on the way to them, so a name that only
begins like that of the directory makes no difference.
-/

namespace MarkerDoc

namespace Listing

/-! ## The order of entries -/

/-- The same entries in another order, here and in the directories below. -/
inductive Rearranged : Listing → Listing → Prop
  | nil : Rearranged .nil .nil
  | file {name : String} {content : ByteArray} {rest rest' : Listing}
      (hrest : Rearranged rest rest') :
      Rearranged (.file name content rest) (.file name content rest')
  | dir {name : String} {inside inside' rest rest' : Listing} (hinside : Rearranged inside inside')
      (hrest : Rearranged rest rest') :
      Rearranged (.dir name inside rest) (.dir name inside' rest')
  | swap (first second : String) (entry entry' : Entry) (rest : Listing) :
      Rearranged (cons first entry (cons second entry' rest))
        (cons second entry' (cons first entry rest))
  | trans {l m n : Listing} (hlm : Rearranged l m) (hmn : Rearranged m n) : Rearranged l n

theorem node?_cons_of_ne
    {name first : String} (hne : first ≠ name) (entry : Entry) (rest : Listing)
    (names : List String) :
    (cons name entry rest).node? (first :: names) = rest.node? (first :: names) := by
  rw [node?_cons, node?_cons, find?_cons, if_neg hne]

theorem node?_cons_self
    (name : String) (entry : Entry) (rest rest' : Listing) (names : List String) :
    (cons name entry rest).node? (name :: names) =
      (cons name entry rest').node? (name :: names) := by
  rw [node?_cons, node?_cons, find?_cons, find?_cons, if_pos rfl, if_pos rfl]

section

variable {l l' : Listing}

theorem Rearranged.names_perm (h : Rearranged l l') : l.names.Perm l'.names := by
  induction h with
  | nil => exact .nil
  | file _ ih => exact ih.cons _
  | dir _ _ _ ih => exact ih.cons _
  | swap first second entry entry' rest =>
      simp only [names_cons]
      exact .swap second first rest.names
  | trans _ _ ih ih' => exact ih.trans ih'

theorem Rearranged.wellFormed (h : Rearranged l l') (hwf : l.WellFormed) : l'.WellFormed := by
  induction h with
  | nil => trivial
  | file hrest ih =>
      obtain ⟨hname, hnew, hwf⟩ := hwf
      exact ⟨hname, fun hmem => hnew (hrest.names_perm.mem_iff.mpr hmem), ih hwf⟩
  | dir hinside hrest ih_inside ih =>
      obtain ⟨hname, hnew, hwf_inside, hwf⟩ := hwf
      exact ⟨hname, fun hmem => hnew (hrest.names_perm.mem_iff.mpr hmem), ih_inside hwf_inside,
        ih hwf⟩
  | swap first second entry entry' rest =>
      simp only [wellFormed_cons_iff, names_cons, List.mem_cons, not_or] at hwf ⊢
      obtain ⟨hfirst, ⟨hne, hnew⟩, hentry, hsecond, hnew', hentry', hrest⟩ := hwf
      exact ⟨hsecond, ⟨Ne.symm hne, hnew'⟩, hentry', hfirst, hnew, hentry, hrest⟩
  | trans _ _ ih ih' => exact ih' (ih hwf)

/-- The order of the entries does not show in what stands where. -/
theorem Rearranged.node?_eq (h : Rearranged l l') (hwf : l.WellFormed) : l.node? = l'.node? := by
  funext place
  induction h generalizing place with
  | nil => rfl
  | @file name content rest rest' hrest ih =>
      cases place with
      | nil => simp
      | cons first names =>
          by_cases hfirst : first = name
          · subst hfirst
            exact node?_cons_self first (.file content) rest rest' names
          · have hskip := node?_cons_of_ne hfirst (.file content)
            exact (hskip rest names).trans ((ih hwf.2.2 _).trans (hskip rest' names).symm)
  | @dir name inside inside' rest rest' hinside hrest ih_inside ih =>
      obtain ⟨-, -, hwf_inside, hwf⟩ := hwf
      cases place with
      | nil => simp
      | cons first names =>
          by_cases hfirst : first = name
          · subst hfirst
            simpa [node?_cons, find?] using ih_inside hwf_inside names
          · have hskip := fun inside => node?_cons_of_ne hfirst (.dir inside)
            exact (hskip inside rest names).trans
              ((ih hwf _).trans (hskip inside' rest' names).symm)
  | swap first second entry entry' rest =>
      -- The first entry of a name counts, so the two must not share one.
      have hne : first ≠ second := by
        simp only [wellFormed_cons_iff, names_cons, List.mem_cons, not_or] at hwf
        exact hwf.2.1.1
      cases place with
      | nil => simp
      | cons name names =>
          by_cases hfirst : name = first
          · subst hfirst
            rw [node?_cons_of_ne hne]
            exact node?_cons_self name entry _ rest names
          · rw [node?_cons_of_ne hfirst]
            by_cases hsecond : name = second
            · subst hsecond
              exact node?_cons_self name entry' rest _ names
            · rw [node?_cons_of_ne hsecond, node?_cons_of_ne hsecond, node?_cons_of_ne hfirst]
  | trans hlm _ ih ih' => exact (ih hwf place).trans (ih' (hlm.wellFormed hwf) place)

end

/-! ## Reaching files -/

/-- A file stands at the place, and the names of the directories on the way are texts that are
neither hidden nor excluded. -/
inductive Reaches (settings : ExtractSettings) : Listing → List String → Prop
  | file {l : Listing} {name : String} {content : ByteArray}
      (hfile : l.find? name = some (.file content)) : Reaches settings l [name]
  | dir {l inside : Listing} {name text : String} {names : List String}
      (hdir : l.find? name = some (.dir inside)) (htext : Bytes.toText? name = some text)
      (hhidden : ¬ ".".toList <+: text.toList) (hexcluded : text ∉ settings.excludeDirs)
      (hinside : Reaches settings inside names) : Reaches settings l (name :: names)

end Listing

theorem ExtractSettings.searches_iff {settings : ExtractSettings} {name : String} :
    settings.searches name = true ↔
      ∃ text, Bytes.toText? name = some text ∧ ¬ ".".toList <+: text.toList ∧
        text ∉ settings.excludeDirs := by
  unfold searches
  cases Bytes.toText? name with
  | none => simp
  | some text =>
      simp only [Bool.not_eq_true', Bool.or_eq_false_iff, ← Text.startsWith_iff, Option.some.injEq,
        exists_eq_left', Bool.not_eq_true]
      simp [isExcludedDir]

theorem ExtractSettings.recognizes_iff {settings : ExtractSettings} {p : Path} :
    settings.Recognizes p ↔
      ∃ e, p.extension?.bind Bytes.toText? = some e ∧
        (e ∈ settings.sourceExtensions ∨ e ∈ settings.documentExtensions) := by
  unfold Recognizes isSource isDocument hasExtension
  cases p.extension?.bind Bytes.toText? <;> simp

namespace Listing

theorem Reaches.cons_iff
    {settings : ExtractSettings} {l : Listing} {name : String} {names : List String} :
    Reaches settings l (name :: names) ↔
      (names = [] ∧ ∃ content, l.find? name = some (.file content)) ∨
        ∃ inside, l.find? name = some (.dir inside) ∧ settings.searches name = true ∧
          Reaches settings inside names := by
  constructor
  · intro h
    cases h with
    | file hfile => exact .inl ⟨rfl, _, hfile⟩
    | dir hdir htext hhidden hexcluded hinside =>
        exact .inr ⟨_, hdir, ExtractSettings.searches_iff.mpr ⟨_, htext, hhidden, hexcluded⟩,
          hinside⟩
  · rintro (⟨rfl, content, hfile⟩ | ⟨inside, hdir, hsearched, hinside⟩)
    · exact .file hfile
    · obtain ⟨text, htext, hhidden, hexcluded⟩ := ExtractSettings.searches_iff.mp hsearched
      exact .dir hdir htext hhidden hexcluded hinside

theorem not_reaches_nil {settings : ExtractSettings} {l : Listing} : ¬ Reaches settings l [] := by
  intro h
  cases h

theorem reaches_iff
    {settings : ExtractSettings} {l : Listing} {names : List String} :
    Reaches settings l names ↔
      (l.content? names).isSome ∧ ∀ s ∈ names.dropLast, settings.searches s = true := by
  induction names generalizing l with
  | nil => simp [not_reaches_nil, content?, Node.content?]
  | cons name names ih =>
      rw [Reaches.cons_iff, searched_cons_iff]
      simp only [ih]

end Listing

namespace Disk

/-! ## Disks with their entries in another order -/

/-- The same disk, with the entries of its directories in another order. -/
structure Relisted (d d' : Disk) : Prop where
  top : d.top.Rearranged d'.top
  cwd : d'.cwd = d.cwd
  maxPath : d'.maxPath = d.maxPath

theorem Relisted.node?_eq {d d' : Disk} (h : d.Relisted d') (hwf : d.top.WellFormed) :
    d.node? = d'.node? :=
  h.top.node?_eq hwf

theorem Relisted.isExtension {d d' : Disk} (h : d.Relisted d') (hwf : d.top.WellFormed) :
    d.Extends d' where
  cwd := h.cwd
  maxPath := h.maxPath
  dir hdir := h.node?_eq hwf ▸ hdir
  file hfile := ⟨_, h.node?_eq hwf ▸ hfile⟩

/-! ## What is listed -/

/-- The files that are looked for: those that can be reached and have a known extension. -/
structure Sought (settings : ExtractSettings) (dir : Path) (inside : Listing)
    (names : List String) : Prop where
  reached : inside.Reaches settings names
  extension : ∃ e, (dir.through names).extension?.bind Bytes.toText? = some e ∧
    (e ∈ settings.sourceExtensions ∨ e ∈ settings.documentExtensions)

theorem sought_iff
    {settings : ExtractSettings} {dir : Path} {inside : Listing} {names : List String} :
    Sought settings dir inside names ↔
      (inside.content? names).isSome ∧ (∀ s ∈ names.dropLast, settings.searches s = true) ∧
        settings.Recognizes (dir.through names) := by
  rw [ExtractSettings.recognizes_iff, ← and_assoc, ← Listing.reaches_iff]
  exact ⟨fun h => ⟨h.reached, h.extension⟩, fun h => ⟨h.1, h.2⟩⟩

/-- No path through a directory tree is too long to be followed. -/
def Followable (d : Disk) (dir : Path) (inside : Listing) : Prop :=
  ∀ names, (inside.node? names).isSome → d.fits (dir.through names) = true

theorem followable_of_unlimited
    {d : Disk} (h : d.maxPath = none) (dir : Path) (inside : Listing) :
    d.Followable dir inside := by
  intro names _
  rw [fits, h]
  rfl

section

variable {d d' : Disk} {settings : ExtractSettings} {dir : Path} {place : List String}
  {inside : Listing}

theorem pairwise_lt_collectFiles (hwf : inside.WellFormed) (hdir : dir.text ≠ "") :
    (d.collectFiles settings dir inside).Pairwise fun f g => f.lt g = true := by
  have hsorted : (d.collectFiles settings dir inside).Pairwise _ := d.pairwise_collectFiles inside
  refine (hsorted.and (nodup_collectFiles hwf hdir)).imp_of_mem ?_
  rintro f g hf hg ⟨hle, hne⟩
  rw [Path.lt_iff]
  refine lt_of_le_of_ne hle fun heq => hne ?_
  -- Paths of the same components are reached by the same names.
  obtain ⟨names, hfound, rfl⟩ := (mem_collectFiles_iff hwf).mp hf
  obtain ⟨names', hfound', rfl⟩ := (mem_collectFiles_iff hwf).mp hg
  rw [Path.through_injective hdir (hfound.isPlain hwf) (hfound'.isPlain hwf) heq]

theorem mem_collectFiles_iff_sought
    (hwf : d.top.WellFormed) (hplace : d.locate dir = .ok place)
    (hget : d.top.get? place = some (.dir inside)) (hfits : d.Followable dir inside) {f : Path} :
    f ∈ d.collectFiles settings dir inside ↔
      ∃ names, Sought settings dir inside names ∧ f = dir.through names := by
  rw [mem_collectFiles_iff (hwf.get? hget)]
  refine exists_congr fun names => and_congr_left fun _ => ?_
  rw [sought_iff, ← content?_append hget names]
  by_cases hsome : (inside.node? names).isSome
  · exact found_iff_of_fits hwf hplace hget (hfits names hsome)
  · refine iff_of_false (fun h => hsome h.isSome_node?) (fun h => hsome ?_)
    exact Option.isSome_of_isSome_bind (content?_append hget names ▸ h.1)

/-- In another order of the entries a search finds what it found. -/
theorem Relisted.found
    (h : d.Relisted d') (hwf : d.top.WellFormed) (hplace : d.locate dir = .ok place)
    {inside' : Listing} (hget : d.top.get? place = some (.dir inside))
    (hget' : d'.top.get? place = some (.dir inside')) {names : List String} :
    Listing.Found settings d.isDir inside dir names ↔
      Listing.Found settings d'.isDir inside' dir names := by
  have hwf' : d'.top.WellFormed := h.top.wellFormed hwf
  have hnode : inside.node? = inside'.node? := by
    funext front
    rw [← Listing.node?_append_of_get? hget, ← Listing.node?_append_of_get? hget']
    exact congrFun (h.node?_eq hwf) _
  have hopen : ∀ front, inside.node? front = some .dir →
      d'.isDir (dir.through front) = d.isDir (dir.through front) := by
    intro front hfront
    have hdir := hfront
    rw [hnode, ← Listing.node?_append_of_get? hget'] at hdir
    rw [← Listing.node?_append_of_get? hget] at hfront
    rw [isDir_through hwf hplace hfront,
      isDir_through hwf' ((h.isExtension hwf).locate hplace) hdir, (h.isExtension hwf).fits]
  constructor
  · intro hfound
    refine hfound.mono (fun content hfile => ⟨content, hnode ▸ hfile⟩) fun front _ hdir => ?_
    exact ⟨hnode ▸ hdir, hopen front hdir⟩
  · intro hfound
    refine hfound.mono (fun content hfile => ⟨content, hnode ▸ hfile⟩) fun front _ hdir => ?_
    rw [← hnode] at hdir
    exact ⟨hdir, (hopen front hdir).symm⟩

theorem Relisted.exists_collectFiles
    (h : d.Relisted d') (hwf : d.top.WellFormed) (hplace : d.locate dir = .ok place)
    (hget : d.top.get? place = some (.dir inside)) :
    ∃ inside', d'.entry dir = .ok (.dir inside') ∧
      d'.collectFiles settings dir inside' = d.collectFiles settings dir inside := by
  have hwf' : d'.top.WellFormed := h.top.wellFormed hwf
  have hnode : d.node? place = some .dir := Listing.node?_eq_dir_iff.mpr ⟨inside, hget⟩
  have hplace' : d'.locate dir = .ok place := (h.isExtension hwf).locate hplace
  rw [h.node?_eq hwf] at hnode
  obtain ⟨inside', hget'⟩ := Listing.node?_eq_dir_iff.mp hnode
  have hdir : dir.text ≠ "" := (checkPath_eq_ok_iff.mp (locate_eq_ok_iff.mp hplace).1).2.1
  refine ⟨inside', entry_eq_ok_iff.mpr ⟨place, hplace', hget'⟩, ?_⟩
  apply eq_of_sublist_collectFiles (hwf'.get? hget') (hwf.get? hget) hdir (.refl _) (.refl _)
  intro f
  rw [mem_collectFiles_iff (hwf'.get? hget'), mem_collectFiles_iff (hwf.get? hget)]
  exact exists_congr fun names => and_congr_left fun _ => (h.found hwf hplace hget hget').symm

/-! ## What is left out -/

/-- A file is left out if the names on the way to it begin with those of the directory that is left
out. -/
theorem not_mem_excludeBelow_iff
    (hwf : d.top.WellFormed) (hplace : d.locate dir = .ok place)
    (hget : d.top.get? place = some (.dir inside)) (hfits : d.Followable dir inside)
    {names : List String} (h : Sought settings dir inside names) (out : Path) :
    dir.through names ∉ d.excludeBelow out (d.collectFiles settings dir inside) ↔
      ∃ o, d.locate out = .ok o ∧ o <+: place ++ names := by
  have hlisted : dir.through names ∈ d.collectFiles settings dir inside :=
    (mem_collectFiles_iff_sought hwf hplace hget hfits).mpr ⟨names, h, rfl⟩
  have hfile : (inside.content? names).isSome := (sought_iff.mp h).1
  have hlocate : d.locate (dir.through names) = .ok (place ++ names) :=
    locate_of_found hwf hplace (content?_append hget names ▸ hfile)
      (hfits names (Option.isSome_of_isSome_bind hfile))
  rw [mem_excludeBelow_iff, not_and_not_right]
  constructor
  · intro hbelow
    obtain ⟨o, inner, hout, hinner⟩ := hbelow hlisted
    have hsame := Except.ok.inj (hlocate.symm.trans hinner)
    exact ⟨o, hout, hsame ▸ List.prefix_append o inner⟩
  · rintro ⟨o, hout, inner, hsame⟩ -
    exact ⟨o, inner, hout, hsame ▸ hlocate⟩

theorem mem_excludeBelow_beside
    (hwf : d.top.WellFormed) (hplace : d.locate dir = .ok place)
    (hget : d.top.get? place = some (.dir inside)) (hfits : d.Followable dir inside)
    {name sibling : String} {rest : List String} (hname : Page.IsPlain name)
    (hne : sibling ≠ name) (h : Sought settings dir inside (sibling :: rest)) :
    dir.through (sibling :: rest) ∈
      d.excludeBelow (dir.join ⟨name⟩) (d.collectFiles settings dir inside) := by
  by_contra hout
  obtain ⟨o, hlocate, hfront⟩ := (not_mem_excludeBelow_iff hwf hplace hget hfits h _).mp hout
  obtain rfl := locate_join_eq hplace hname hlocate
  rw [List.prefix_append_right_inj, List.cons_prefix_cons] at hfront
  exact hne hfront.1.symm

/-- A search from a directory gives one list, whatever the order of the directory entries, strictly
in the order of the paths and without a path twice.  If no path is too long to be followed, it lists
the files that it looks for.  Leaving out a directory afterwards keeps the order and takes away the
files behind the names of that directory, and not those behind a name that begins alike. -/
theorem collectFiles_exact
    (hwf : d.top.WellFormed) (hplace : d.locate dir = .ok place)
    (hget : d.top.get? place = some (.dir inside)) (settings : ExtractSettings) :
    (∀ d', d.Relisted d' → ∃ inside', d'.entry dir = .ok (.dir inside') ∧
      d'.collectFiles settings dir inside' = d.collectFiles settings dir inside) ∧
    (d.collectFiles settings dir inside).Pairwise (fun f g => f.lt g = true) ∧
    (d.collectFiles settings dir inside).Nodup ∧
    (d.Followable dir inside →
      (∀ f, f ∈ d.collectFiles settings dir inside ↔
        ∃ names, Sought settings dir inside names ∧ f = dir.through names) ∧
      (∀ out, (d.excludeBelow out (d.collectFiles settings dir inside)).Sublist
          (d.collectFiles settings dir inside) ∧
        ∀ names, Sought settings dir inside names →
          (dir.through names ∉ d.excludeBelow out (d.collectFiles settings dir inside) ↔
            ∃ o, d.locate out = .ok o ∧ o <+: place ++ names)) ∧
      ∀ name sibling rest, Page.IsPlain name → sibling ≠ name →
        Sought settings dir inside (sibling :: rest) →
          dir.through (sibling :: rest) ∈
            d.excludeBelow (dir.join ⟨name⟩) (d.collectFiles settings dir inside)) := by
  have hinside : inside.WellFormed := hwf.get? hget
  have hdir : dir.text ≠ "" := (checkPath_eq_ok_iff.mp (locate_eq_ok_iff.mp hplace).1).2.1
  refine ⟨fun d' h => h.exists_collectFiles hwf hplace hget, pairwise_lt_collectFiles hinside hdir,
    nodup_collectFiles hinside hdir, fun hfits => ⟨?_, ?_, ?_⟩⟩
  · intro f
    exact mem_collectFiles_iff_sought hwf hplace hget hfits
  · intro out
    refine ⟨d.excludeBelow_sublist _, fun names h => ?_⟩
    exact not_mem_excludeBelow_iff hwf hplace hget hfits h out
  · intro name sibling rest hname hne h
    exact mem_excludeBelow_beside hwf hplace hget hfits hname hne h

end

/-- A directory with two directories whose names begin alike, and a directory named like a source
file. -/
def libraryEntries : Listing :=
  .dir "docs" (.file "guide.md" .empty .nil)
    (.dir "doc" (.file "A.md" .empty .nil)
      (.dir "x.pm" (.file ".y.pl" .empty .nil) .nil))

def library : Disk where
  top := .dir "p" libraryEntries .nil
  cwd := ["p"]

/-- The page in `doc` is left out with it, the one in `docs` and the hidden file are not. -/
theorem collectFiles_exact_beside :
    let files := library.excludeBelow ⟨"./doc"⟩ (library.collectFiles {} ⟨"."⟩ libraryEntries)
    library.top.WellFormed ∧ library.locate ⟨"."⟩ = .ok ["p"] ∧
      library.top.get? ["p"] = some (.dir libraryEntries) ∧
      library.Followable ⟨"."⟩ libraryEntries ∧
      ⟨"./doc/A.md"⟩ ∉ files ∧ ⟨"./docs/guide.md"⟩ ∈ files ∧ ⟨"./x.pm/.y.pl"⟩ ∈ files := by
  intro files
  have hwf : library.top.WellFormed := by decide +kernel
  have hplace : library.locate ⟨"."⟩ = .ok ["p"] := by decide +kernel
  have hget : library.top.get? ["p"] = some (.dir libraryEntries) := rfl
  have hfits : library.Followable ⟨"."⟩ libraryEntries := followable_of_unlimited rfl _ _
  obtain ⟨-, hout, hbeside⟩ := (collectFiles_exact hwf hplace hget {}).2.2.2 hfits
  have hsought : ∀ name file content,
      libraryEntries.find? name = some (.dir (.file file content .nil)) →
      ({} : ExtractSettings).searches name = true →
      ({} : ExtractSettings).Recognizes (Path.through ⟨"."⟩ [name, file]) →
        Sought {} ⟨"."⟩ libraryEntries [name, file] := by
    intro name file content hfind hsearched hknown
    have hfile : (Listing.file file content .nil).find? file = some (.file content) := if_pos rfl
    refine ⟨Listing.Reaches.cons_iff.mpr (.inr ⟨_, hfind, hsearched, .file hfile⟩), ?_⟩
    exact ExtractSettings.recognizes_iff.mp hknown
  have hpage : Sought {} ⟨"."⟩ libraryEntries ["doc", "A.md"] :=
    hsought _ _ _ rfl (by decide +kernel) (by decide +kernel)
  have hguide : Sought {} ⟨"."⟩ libraryEntries ["docs", "guide.md"] :=
    hsought _ _ _ rfl (by decide +kernel) (by decide +kernel)
  have hhidden : Sought {} ⟨"."⟩ libraryEntries ["x.pm", ".y.pl"] :=
    hsought _ _ _ rfl (by decide +kernel) (by decide +kernel)
  have hname : Page.IsPlain "doc" := ⟨by decide +kernel, by decide⟩
  refine ⟨hwf, hplace, hget, hfits, ?_, ?_, ?_⟩
  · exact ((hout _).2 _ hpage).mpr ⟨["p", "doc"], by decide +kernel, by decide⟩
  · exact hbeside "doc" "docs" _ hname (by decide) hguide
  · exact hbeside "doc" "x.pm" _ hname (by decide) hhidden

/-- A source file in a directory whose name ends with a byte that stands in no text, and one beside
it. -/
def latinEntries : Listing :=
  .dir "l\u00ff" (.file "A.pm" .empty .nil) (.file "B.pm" .empty .nil)

def latin : Disk where
  top := .dir "p" latinEntries .nil
  cwd := ["p"]

/-- The directory is neither hidden nor excluded, and its file is there, but it is not listed. -/
theorem collectFiles_passes_over_latin :
    ¬ ".".toList <+: "l\u00ff".toList ∧ "l\u00ff" ∉ ({} : ExtractSettings).excludeDirs ∧
      latin.isFile ⟨"./l\u00ff/A.pm"⟩ = true ∧
      ({} : ExtractSettings).isSource ⟨"./l\u00ff/A.pm"⟩ = true ∧
      latin.collectFiles {} ⟨"."⟩ latinEntries = [⟨"./B.pm"⟩] := by
  decide +kernel

end Disk

end MarkerDoc
