import MarkerDoc.Proofs.Batch
import MarkerDoc.Proofs.Location
import Mathlib.Data.List.Lex
import Mathlib.Data.Prod.Lex
import Mathlib.Data.String.Basic

/-!
# The files that a search finds

A search through a well-formed tree finds the files that can be reached through directories that
are searched, each once and under the path that leads through their names.  Which directories are
entered is told by following their paths; one whose path is too long for that is taken for a file.
Component-wise order of paths is a linear order on what paths mean, so what is found comes in one
order only.
-/

namespace MarkerDoc

namespace Path

/-! ## Component-wise order -/

def Component.key (c : Component) : ℕ ×ₗ String :=
  toLex (c.rank, c.name?.getD "")

theorem Component.key_injective : Function.Injective Component.key := by
  intro a b h
  cases a <;> cases b <;> simp_all [Component.key, Component.rank, Component.name?]

instance : LinearOrder Component :=
  LinearOrder.lift' Component.key Component.key_injective

theorem Component.lt_iff (a b : Component) : a.lt b = true ↔ a < b := by
  change a.lt b = true ↔ a.key < b.key
  rw [Component.key, Component.key, Prod.Lex.toLex_lt_toLex]
  cases a <;> cases b <;> simp [Component.lt, Component.rank, Component.name?]

theorem lt_iff (p q : Path) : p.lt q = true ↔ p.components < q.components := by
  have hlt : Component.lt = fun a b => decide (a < b) := by
    funext a b
    rw [Bool.eq_iff_iff, Component.lt_iff, decide_eq_true_iff]
  rw [lt, hlt, List.lex_eq_true_iff_lt]

theorem le_iff (p q : Path) : p.le q = true ↔ p.components ≤ q.components := by
  rw [le, Bool.not_eq_true', ← Bool.not_eq_true, lt_iff, not_lt]

end Path

/-! ## The search -/

theorem ExtractSettings.isSought_iff {settings : ExtractSettings} {p : Path} :
    settings.isSought p = true ↔ settings.Recognizes p := by
  rw [isSought, Recognizes, Bool.or_eq_true]

namespace Listing

/-- The places that a search lists: those of files, and those of directories whose paths do not
lead to them, behind directories that are searched. -/
inductive Found (settings : ExtractSettings) (isDir : Path → Bool) :
    Listing → Path → List String → Prop
  | file {l : Listing} {dir : Path} {name : String} {content : ByteArray}
      (hfind : l.find? name = some (.file content))
      (hknown : settings.Recognizes (dir.join ⟨name⟩)) : Found settings isDir l dir [name]
  | closed {l inside : Listing} {dir : Path} {name : String}
      (hfind : l.find? name = some (.dir inside)) (hclosed : isDir (dir.join ⟨name⟩) = false)
      (hknown : settings.Recognizes (dir.join ⟨name⟩)) : Found settings isDir l dir [name]
  | inside {l inside : Listing} {dir : Path} {name : String} {names : List String}
      (hfind : l.find? name = some (.dir inside)) (hopen : isDir (dir.join ⟨name⟩) = true)
      (hsearched : settings.searches name = true)
      (hinside : Found settings isDir inside (dir.join ⟨name⟩) names) :
      Found settings isDir l dir (name :: names)

section

variable {settings : ExtractSettings} {isDir : Path → Bool} {dir : Path}

theorem not_found_nil {l : Listing} : ¬ Found settings isDir l dir [] := nofun

theorem not_found_empty (names : List String) : ¬ Found settings isDir .nil dir names := by
  intro h
  cases h <;> simp_all [find?]

/-- What is found behind a name depends on the entry of that name alone. -/
theorem Found.congr
    {l l' : Listing} {first : String} {names : List String} (hfind : l.find? first = l'.find? first)
    (h : Found settings isDir l dir (first :: names)) :
    Found settings isDir l' dir (first :: names) := by
  cases h with
  | file hfile hknown => exact .file (hfind ▸ hfile) hknown
  | closed hdir hclosed hknown => exact .closed (hfind ▸ hdir) hclosed hknown
  | inside hdir hopen hsearched hinside => exact .inside (hfind ▸ hdir) hopen hsearched hinside

theorem found_iff_of_find?
    {l l' : Listing} {first : String} (hfind : l.find? first = l'.find? first)
    (names : List String) :
    Found settings isDir l dir (first :: names) ↔ Found settings isDir l' dir (first :: names) :=
  ⟨Found.congr hfind, Found.congr hfind.symm⟩

theorem found_cons_iff_of_ne
    {name first : String} (hne : first ≠ name) (entry : Entry) (rest : Listing)
    (names : List String) :
    Found settings isDir (cons name entry rest) dir (first :: names) ↔
      Found settings isDir rest dir (first :: names) := by
  apply found_iff_of_find?
  rw [find?_cons, if_neg hne]

theorem found_file_iff (name : String) (content : ByteArray) (rest : Listing)
    (names : List String) :
    Found settings isDir (.file name content rest) dir (name :: names) ↔
      names = [] ∧ settings.Recognizes (dir.join ⟨name⟩) := by
  have hentry : (Listing.file name content rest).find? name = some (.file content) := if_pos rfl
  constructor
  · intro h
    cases h with
    | file hfind hknown => exact ⟨rfl, hknown⟩
    | closed hfind _ _ => simp [hentry] at hfind
    | inside hfind _ _ _ => simp [hentry] at hfind
  · rintro ⟨rfl, hknown⟩
    exact .file hentry hknown

theorem found_dir_iff (name : String) (inside rest : Listing) (names : List String) :
    Found settings isDir (.dir name inside rest) dir (name :: names) ↔
      if isDir (dir.join ⟨name⟩) then
        settings.searches name = true ∧ Found settings isDir inside (dir.join ⟨name⟩) names
      else names = [] ∧ settings.Recognizes (dir.join ⟨name⟩) := by
  have hentry : (Listing.dir name inside rest).find? name = some (.dir inside) := if_pos rfl
  constructor
  · intro h
    cases h with
    | file hfind _ => simp [hentry] at hfind
    | closed _ hclosed hknown => simp [hclosed, hknown]
    | inside hfind hopen hsearched hinside =>
        obtain rfl : inside = _ := by simpa using hentry.symm.trans hfind
        simp [hopen, hsearched, hinside]
  · intro h
    split_ifs at h with hopen
    · exact .inside hentry hopen h.1 h.2
    · obtain ⟨rfl, hknown⟩ := h
      exact .closed hentry (by simpa using hopen) hknown

/-- Something stands where a search finds something. -/
theorem Found.isSome_node?
    {l : Listing} {names : List String} (h : Found settings isDir l dir names) :
    (l.node? names).isSome := by
  induction h with
  | file hfind _ => simp [node?_singleton, hfind]
  | closed hfind _ _ => simp [node?_singleton, hfind]
  | inside hfind _ _ _ ih => rwa [node?_cons, hfind]

theorem exists_head_of_found
    {l : Listing} {names : List String} (h : Found settings isDir l dir names) :
    ∃ first rest, names = first :: rest ∧ first ∈ l.names := by
  cases names with
  | nil => exact absurd h not_found_nil
  | cons first rest =>
      refine ⟨first, rest, rfl, ?_⟩
      rw [← isSome_find?_iff]
      cases h <;> simp_all

/-- What is found stands at the first entry of a listing or in its rest. -/
theorem exists_found_cons_iff
    {name : String} {rest : Listing} (hnew : name ∉ rest.names) (entry : Entry)
    (P : List String → Prop) :
    (∃ names, Found settings isDir (cons name entry rest) dir names ∧ P names) ↔
      (∃ names, Found settings isDir (cons name entry rest) dir (name :: names) ∧
        P (name :: names)) ∨
        ∃ names, Found settings isDir rest dir names ∧ P names := by
  constructor
  · rintro ⟨names, hfound, hP⟩
    obtain ⟨first, tail, rfl, -⟩ := exists_head_of_found hfound
    by_cases hfirst : first = name
    · subst hfirst
      exact .inl ⟨tail, hfound, hP⟩
    · exact .inr ⟨_, (found_cons_iff_of_ne hfirst entry rest tail).mp hfound, hP⟩
  · rintro (⟨names, hfound, hP⟩ | ⟨names, hfound, hP⟩)
    · exact ⟨_, hfound, hP⟩
    · obtain ⟨first, tail, rfl, hfirst⟩ := exists_head_of_found hfound
      have hne : first ≠ name := fun h => hnew (h ▸ hfirst)
      exact ⟨_, (found_cons_iff_of_ne hne entry rest tail).mpr hfound, hP⟩

theorem mem_if_isSought_iff {p f : Path} :
    f ∈ (if settings.isSought p then [p] else []) ↔ settings.Recognizes p ∧ f = p := by
  rw [← ExtractSettings.isSought_iff]
  split_ifs with hsought <;> simp [hsought]

/-- The search lists exactly what it finds. -/
theorem mem_matching_iff
    {l : Listing} (hwf : l.WellFormed) {f : Path} :
    f ∈ l.matching settings isDir dir ↔
      ∃ names, Found settings isDir l dir names ∧ f = dir.through names := by
  induction l generalizing dir with
  | nil => simp [matching, not_found_empty]
  | file name content rest ih =>
      obtain ⟨-, hnew, hrest⟩ := hwf
      rw [matching, List.mem_append, ih hrest, mem_if_isSought_iff]
      refine Iff.trans (or_congr_left ?_) (exists_found_cons_iff hnew (.file content) _).symm
      simp only [cons, found_file_iff, and_assoc, exists_eq_left]
      rfl
  | dir name inside rest ih_inside ih =>
      obtain ⟨-, hnew, hinside, hrest⟩ := hwf
      rw [matching, List.mem_append, ih hrest]
      refine Iff.trans (or_congr_left ?_) (exists_found_cons_iff hnew (.dir inside) _).symm
      simp only [cons, found_dir_iff]
      cases isDir (dir.join ⟨name⟩) with
      | false =>
          simp only [Bool.false_eq_true, if_false, mem_if_isSought_iff, and_assoc, exists_eq_left]
          rfl
      | true =>
          cases hsearched : settings.searches name with
          | false => simp
          | true =>
              simp only [if_true, true_and, ih_inside hinside]
              rfl

/-- A search through another tree finds what stands there too, if the directories on the way are
open as before. -/
theorem Found.mono
    {isDir' : Path → Bool} {l l' : Listing} {names : List String}
    (h : Found settings isDir l dir names)
    (hfile : ∀ content, l.node? names = some (.file content) →
      ∃ content', l'.node? names = some (.file content'))
    (hdir : ∀ front, front <+: names → l.node? front = some .dir →
      l'.node? front = some .dir ∧ isDir' (dir.through front) = isDir (dir.through front)) :
    Found settings isDir' l' dir names := by
  induction h generalizing l' with
  | file hfind hknown =>
      obtain ⟨content', hnode⟩ := hfile _ (node?_singleton_eq_file_iff.mpr hfind)
      exact .file (node?_singleton_eq_file_iff.mp hnode) hknown
  | closed hfind hclosed hknown =>
      obtain ⟨hnode, hsame⟩ :=
        hdir _ List.prefix_rfl (node?_singleton_eq_dir_iff.mpr ⟨_, hfind⟩)
      obtain ⟨inside', hfind'⟩ := node?_singleton_eq_dir_iff.mp hnode
      exact .closed hfind' (hsame.trans hclosed) hknown
  | @inside l _ dir name names hfind hopen hsearched hinside ih =>
      obtain ⟨hnode, hsame⟩ := hdir [name] (List.prefix_append [name] names)
        (node?_singleton_eq_dir_iff.mpr ⟨_, hfind⟩)
      obtain ⟨inside', hfind'⟩ := node?_singleton_eq_dir_iff.mp hnode
      refine .inside hfind' (hsame.trans hopen) hsearched (ih ?_ ?_)
      · intro content hcontent
        rw [← node?_cons_of_find? hfind] at hcontent
        rw [← node?_cons_of_find? hfind']
        exact hfile content hcontent
      · intro front hfront hnode
        rw [← node?_cons_of_find? hfind] at hnode
        rw [← node?_cons_of_find? hfind']
        exact hdir (name :: front) (List.cons_prefix_cons.mpr ⟨rfl, hfront⟩) hnode

/-- A file behind a name is the entry of that name, or it stands in the directory of that name. -/
theorem searched_cons_iff {l : Listing} {name : String} {names : List String} :
    ((l.content? (name :: names)).isSome ∧
        ∀ s ∈ (name :: names).dropLast, settings.searches s = true) ↔
      (names = [] ∧ ∃ content, l.find? name = some (.file content)) ∨
        ∃ inside, l.find? name = some (.dir inside) ∧ settings.searches name = true ∧
          (inside.content? names).isSome ∧ ∀ s ∈ names.dropLast, settings.searches s = true := by
  rw [content?, node?_cons]
  cases hfound : l.find? name with
  | none => simp
  | some entry =>
      cases entry with
      | file content =>
          by_cases hnil : names = [] <;> simp [hnil, Node.content?]
      | dir inside =>
          simp only [reduceCtorEq, exists_false, and_false, false_or, Option.some.injEq,
            Entry.dir.injEq, exists_eq_left']
          cases names with
          | nil => simp [Node.content?, content?]
          | cons next names =>
              rw [List.dropLast_cons_cons, List.forall_mem_cons]
              exact and_left_comm

/-- Where all directories on the way are open, a search finds the files behind directories that are
searched. -/
theorem found_iff_of_open
    {l : Listing} {names : List String}
    (hopen : ∀ front, front <+: names → l.node? front = some .dir →
      isDir (dir.through front) = true) :
    Found settings isDir l dir names ↔
      (l.content? names).isSome ∧ (∀ s ∈ names.dropLast, settings.searches s = true) ∧
        settings.Recognizes (dir.through names) := by
  induction names generalizing l dir with
  | nil => simp [not_found_nil, content?, Node.content?]
  | cons name names ih =>
      have hname : ∀ {inside}, l.find? name = some (.dir inside) →
          isDir (dir.join ⟨name⟩) = true := fun hfind =>
        hopen [name] (List.prefix_append [name] names)
          (node?_singleton_eq_dir_iff.mpr ⟨_, hfind⟩)
      have hbehind : ∀ {inside : Listing}, l.find? name = some (.dir inside) →
          ∀ front, front <+: names → inside.node? front = some .dir →
            isDir ((dir.join ⟨name⟩).through front) = true := fun hfind front hfront hnode =>
        hopen (name :: front) (List.cons_prefix_cons.mpr ⟨rfl, hfront⟩)
          ((node?_cons_of_find? hfind front).trans hnode)
      rw [← and_assoc, searched_cons_iff]
      constructor
      · intro h
        cases h with
        | file hfind hknown => exact ⟨.inl ⟨rfl, _, hfind⟩, hknown⟩
        | closed hfind hclosed _ => exact absurd (hname hfind) (by simp [hclosed])
        | inside hfind _ hsearched hinside =>
            obtain ⟨hfile, hways, hknown⟩ := (ih (hbehind hfind)).mp hinside
            exact ⟨.inr ⟨_, hfind, hsearched, hfile, hways⟩, hknown⟩
      · rintro ⟨⟨rfl, content, hfind⟩ | ⟨inside, hfind, hsearched, hfile, hways⟩, hknown⟩
        · exact .file hfind hknown
        · exact .inside hfind (hname hfind) hsearched
            ((ih (hbehind hfind)).mpr ⟨hfile, hways, hknown⟩)

theorem Found.isPlain
    {l : Listing} (hwf : l.WellFormed) {names : List String}
    (h : Found settings isDir l dir names) : ∀ s ∈ names, Page.IsPlain s := by
  intro s hs
  exact (hwf.isFileName_of_isSome h.isSome_node? hs).toIsPlain

theorem head_mem_of_mem_matching
    {l : Listing} (hwf : l.WellFormed) (hdir : dir.text ≠ "") {name : String} {names : List String}
    (hplain : ∀ s ∈ name :: names, Page.IsPlain s)
    (h : dir.through (name :: names) ∈ l.matching settings isDir dir) :
    name ∈ l.names := by
  obtain ⟨names', hfound, heq⟩ := (mem_matching_iff hwf).mp h
  obtain rfl := Path.through_injective hdir hplain (hfound.isPlain hwf) (congrArg _ heq)
  obtain ⟨first, rest, hcons, hfirst⟩ := exists_head_of_found hfound
  cases hcons
  exact hfirst

theorem nodup_matching
    {l : Listing} (hwf : l.WellFormed) (hdir : dir.text ≠ "") :
    (l.matching settings isDir dir).Nodup := by
  induction l generalizing dir with
  | nil => simp [matching]
  | file name content rest ih =>
      obtain ⟨hname, hnew, hrest⟩ := hwf
      rw [matching, List.nodup_append]
      refine ⟨by split_ifs <;> simp, ih hrest hdir, ?_⟩
      rintro f hf g hg rfl
      obtain ⟨-, rfl⟩ := mem_if_isSought_iff.mp hf
      have hmem : dir.through [name] ∈ rest.matching settings isDir dir := hg
      exact hnew (head_mem_of_mem_matching hrest hdir (by simpa using hname.toIsPlain) hmem)
  | dir name inside rest ih_inside ih =>
      obtain ⟨hname, hnew, hinside, hrest⟩ := hwf
      rw [matching, List.nodup_append]
      refine ⟨?_, ih hrest hdir, ?_⟩
      · split_ifs
        · exact ih_inside hinside (Path.text_join_ne_empty hdir)
        all_goals simp
      · rintro f hf g hg rfl
        -- Whatever the first entry contributes has its name in front.
        obtain ⟨names, hplain, rfl⟩ : ∃ names, (∀ s ∈ name :: names, Page.IsPlain s) ∧
            f = dir.through (name :: names) := by
          split_ifs at hf with hopen hsearched
          · obtain ⟨names, hfound, rfl⟩ := (mem_matching_iff hinside).mp hf
            refine ⟨names, fun s hs => ?_, rfl⟩
            rcases List.mem_cons.mp hs with rfl | hs
            · exact hname.toIsPlain
            · exact hfound.isPlain hinside s hs
          · simp at hf
          · exact ⟨[], by simpa using hname.toIsPlain, List.mem_singleton.mp hf⟩
          · simp at hf
        exact hnew (head_mem_of_mem_matching hrest hdir hplain hg)

end

end Listing

namespace Disk

variable {settings : ExtractSettings} {dir : Path}

theorem mem_collectFiles_iff {d : Disk} {l : Listing} (hwf : l.WellFormed) {f : Path} :
    f ∈ d.collectFiles settings dir l ↔
      ∃ names, Listing.Found settings d.isDir l dir names ∧ f = dir.through names :=
  List.mem_mergeSort.trans (Listing.mem_matching_iff hwf)

theorem pairwise_collectFiles (d : Disk) (l : Listing) :
    (d.collectFiles settings dir l).Pairwise fun f g => f.components ≤ g.components := by
  have hsorted : (d.collectFiles settings dir l).Pairwise fun f g => f.le g = true := by
    apply List.pairwise_mergeSort
    · intro f g h
      simp only [Path.le_iff]
      exact le_trans
    · intro f g
      simp only [Bool.or_eq_true, Path.le_iff]
      exact le_total _ _
  exact hsorted.imp fun h => (Path.le_iff _ _).mp h

theorem nodup_collectFiles
    {d : Disk} {l : Listing} (hwf : l.WellFormed) (hdir : dir.text ≠ "") :
    (d.collectFiles settings dir l).Nodup :=
  (List.mergeSort_perm _ _).nodup_iff.mpr (Listing.nodup_matching hwf hdir)

/-- What is left of two searches from one directory is the same list if it is the same files. -/
theorem eq_of_sublist_collectFiles
    {d d' : Disk} {l l' : Listing} (hwf : l.WellFormed) (hwf' : l'.WellFormed)
    (hdir : dir.text ≠ "") {files files' : List Path}
    (hfiles : files.Sublist (d.collectFiles settings dir l))
    (hfiles' : files'.Sublist (d'.collectFiles settings dir l'))
    (h : ∀ f, f ∈ files ↔ f ∈ files') :
    files = files' := by
  have hnodup := (nodup_collectFiles hwf hdir).sublist hfiles
  have hnodup' := (nodup_collectFiles hwf' hdir).sublist hfiles'
  apply List.Perm.eq_of_pairwise _ ((d.pairwise_collectFiles l).sublist hfiles)
    ((d'.pairwise_collectFiles l').sublist hfiles')
    ((List.perm_ext_iff_of_nodup hnodup hnodup').mpr h)
  intro f g hf hg hle hge
  obtain ⟨names, hfound, rfl⟩ := (mem_collectFiles_iff hwf).mp (hfiles.subset hf)
  obtain ⟨names', hfound', rfl⟩ := (mem_collectFiles_iff hwf').mp (hfiles'.subset hg)
  rw [Path.through_injective hdir (hfound.isPlain hwf) (hfound'.isPlain hwf') (le_antisymm hle hge)]

/-- A path that leads to a directory or to something in it. -/
def LeadsBelow (d : Disk) (dir p : Path) : Prop :=
  ∃ place inner, d.locate dir = .ok place ∧ d.locate p = .ok (place ++ inner)

theorem leadsBelow_iff
    {d : Disk} {p : Path} {place found : List String} (hdir : d.locate dir = .ok place)
    (hp : d.locate p = .ok found) : d.LeadsBelow dir p ↔ place <+: found := by
  simp only [LeadsBelow, hdir, hp, Except.ok.injEq]
  constructor
  · rintro ⟨_, inner, rfl, rfl⟩
    exact List.prefix_append place inner
  · rintro ⟨inner, rfl⟩
    exact ⟨place, inner, rfl, rfl⟩

theorem mem_excludeBelow_iff {d : Disk} {files : List Path} {f : Path} :
    f ∈ d.excludeBelow dir files ↔ f ∈ files ∧ ¬ d.LeadsBelow dir f := by
  unfold excludeBelow
  cases hdir : d.locate dir with
  | error cause => simp [LeadsBelow, hdir]
  | ok place =>
      simp only [List.mem_filter]
      cases hf : d.locate f with
      | error cause => simp [LeadsBelow, hf]
      | ok found => simp [leadsBelow_iff hdir hf, ← List.isPrefixOf_iff_prefix]

theorem excludeBelow_sublist (d : Disk) (files : List Path) :
    (d.excludeBelow dir files).Sublist files := by
  unfold excludeBelow
  split
  · exact .refl _
  · exact List.filter_sublist

theorem excludeBelow_singleton_eq_iff {d : Disk} {p : Path} :
    d.excludeBelow dir [p] = [p] ↔ ¬ d.LeadsBelow dir p := by
  constructor
  · intro hall
    have hmem : p ∈ d.excludeBelow dir [p] := by simp [hall]
    exact (mem_excludeBelow_iff.mp hmem).2
  · intro hout
    have hmem := mem_excludeBelow_iff.mpr ⟨List.mem_singleton_self p, hout⟩
    exact (List.sublist_singleton.mp (d.excludeBelow_sublist [p])).resolve_left
      (List.ne_nil_of_mem hmem)

end Disk

end MarkerDoc
