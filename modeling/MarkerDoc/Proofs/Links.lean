import MarkerDoc.Project
import MarkerDoc.Proofs.IndexOrder
import MarkerDoc.Proofs.Placement

/-!
# Where the links of the index lead

Entries meet in two places: at a node of the index when they have the same segments, and in a file
when their pages have the same path.  In both the last one wins.  Entries that meet at a node meet
in a file as well, so a link never leads to an entry that the index has dropped; but entries of
different nodes can meet in a file too, since the extension of a page takes the place of whatever
follows the last dot of a segment, and since the index page is itself a file.
-/

namespace MarkerDoc

open Page

/-- The place of an entry in the index. -/
def Leaf.segments (root : Path) : Leaf → List String
  | .module m => m.package.segments
  | .document d => documentSegments root d.path

theorem Page.leafPath_eq_place (root : Path) (leaf : Leaf) :
    leafPath root leaf = place (leaf.segments root) := by
  cases leaf <;> rfl

namespace Project

/-- The entries of a project in the order in which they are written. -/
def entries (p : Project) : List Leaf :=
  p.modules.map .module ++ p.documents.map .document

/-- Everything that is written for a project: its pages, and then the index page. -/
def writes (p : Project) (heading : String) : List (Path × String) :=
  p.pages ++ [(⟨indexName⟩, ofIndex heading p.index p.root)]

/-- The text that a file holds when everything is written.  A file is known by the components of its
path. -/
def written (p : Project) (heading : String) (file : Path) : Option String :=
  replay ((p.writes heading).map fun w => (w.1.components, w.2)) file.components

theorem placements_eq (p : Project) :
    placements p.root p.modules p.documents =
      p.entries.map fun leaf => (leaf.segments p.root, leaf) := by
  simp only [placements, entries, List.map_append, List.map_map]
  rfl

theorem pages_eq (p : Project) :
    p.pages = p.entries.map fun leaf => (leafPath p.root leaf, ofLeaf leaf) := by
  simp only [pages, entries, List.map_append, List.map_map]
  rfl

/-! ## Entries of the index -/

/-- An entry stands in the index if it has a place and no later entry has the same. -/
theorem mem_leaves_index_iff {p : Project} {leaf : Leaf} :
    leaf ∈ p.index.leaves ↔
      leaf.segments p.root ≠ [] ∧ ∃ front back, p.entries = front ++ leaf :: back ∧
        ∀ l ∈ back, l.segments p.root ≠ leaf.segments p.root := by
  rw [index, Index.mem_leaves_build_iff, placements_eq]
  simp only [replay_map_eq_some_iff]
  constructor
  · rintro ⟨segments, hne, front, l, back, hentries, rfl, rfl, hback⟩
    exact ⟨hne, front, back, hentries, hback⟩
  · rintro ⟨hne, front, back, hentries, hback⟩
    exact ⟨_, hne, front, leaf, back, hentries, rfl, rfl, hback⟩

theorem mem_entries_of_mem_leaves {p : Project} {leaf : Leaf} (h : leaf ∈ p.index.leaves) :
    leaf ∈ p.entries := by
  obtain ⟨-, front, back, hentries, -⟩ := mem_leaves_index_iff.mp h
  rw [hentries]
  simp

theorem leaf_eq_of_segments_eq
    {p : Project} {a b : Leaf} (ha : a ∈ p.index.leaves) (hb : b ∈ p.index.leaves)
    (h : a.segments p.root = b.segments p.root) : a = b := by
  have hat : ∀ {leaf : Leaf}, leaf ∈ p.index.leaves →
      replay (p.entries.map fun l => (l.segments p.root, l)) (leaf.segments p.root) =
        some leaf := by
    intro leaf hleaf
    obtain ⟨-, front, back, hentries, hback⟩ := mem_leaves_index_iff.mp hleaf
    exact replay_map_eq_some_iff.mpr ⟨front, leaf, back, hentries, rfl, rfl, hback⟩
  have hboth := hat ha
  rw [h, hat hb] at hboth
  exact (Option.some.inj hboth).symm

/-! ## Files -/

/-- Two entries are written to one file. -/
def ShareFile (root : Path) (a b : Leaf) : Prop :=
  (leafPath root a).components = (leafPath root b).components

/-- An entry is written to the file of the index page. -/
def TakesIndexFile (root : Path) (leaf : Leaf) : Prop :=
  (leafPath root leaf).components = (⟨indexName⟩ : Path).components

instance (root : Path) (leaf : Leaf) : Decidable (TakesIndexFile root leaf) :=
  inferInstanceAs (Decidable (_ = _))

theorem written_of_takesIndexFile
    {p : Project} {leaf : Leaf} (h : TakesIndexFile p.root leaf) (heading : String) :
    p.written heading (leafPath p.root leaf) = some (ofIndex heading p.index p.root) := by
  rw [written, writes, List.map_append, List.map_singleton, replay_append_singleton, h,
    Function.update_self]

theorem written_of_not_takesIndexFile
    {p : Project} {leaf : Leaf} (h : ¬ TakesIndexFile p.root leaf) (heading : String) :
    p.written heading (leafPath p.root leaf) =
      replay (p.entries.map fun l => ((leafPath p.root l).components, ofLeaf l))
        (leafPath p.root leaf).components := by
  rw [written, writes, List.map_append, List.map_singleton, replay_append_singleton,
    Function.update_of_ne h, pages_eq, List.map_map]
  rfl

theorem segments_ne_empty {root : Path} {leaf : Leaf} {s : String}
    (h : s ∈ leaf.segments root) : s ≠ "" := by
  cases leaf with
  | module m => simpa using (List.mem_filter.mp h).2
  | document d => exact (isPlain_documentSegments h).ne_empty

/-- An entry without a place shares its file with no entry that has one. -/
theorem ShareFile.segments_ne_nil
    {root : Path} {a b : Leaf} (h : ShareFile root a b) (ha : a.segments root ≠ []) :
    b.segments root ≠ [] := by
  intro hb
  rw [ShareFile, leafPath_eq_place, leafPath_eq_place, hb, components_place_nil] at h
  refine Path.components_withExtension_ne_nil (Path.text_ofSegments_ne_empty ?_ ?_) h
  · exact mt List.map_eq_nil_iff.mp ha
  · intro s hs
    obtain ⟨t, ht, rfl⟩ := List.mem_map.mp hs
    exact mt (Bytes.ofText_eq_of_ascii (by decide)).mp (segments_ne_empty ht)

/-- A link leads to the page of an entry of the index, if not to the index page. -/
theorem exists_leaf_of_written
    {p : Project} {leaf : Leaf} (hleaf : leaf ∈ p.index.leaves)
    (hindex : ¬ TakesIndexFile p.root leaf) (heading : String) :
    ∃ winner ∈ p.index.leaves, ShareFile p.root leaf winner ∧
      p.written heading (leafPath p.root leaf) = some (ofLeaf winner) := by
  obtain ⟨front, winner, back, hentries, hfile, hback⟩ :=
    exists_last_of_mem (fun l => (leafPath p.root l).components) (mem_entries_of_mem_leaves hleaf)
  have hne := ShareFile.segments_ne_nil hfile.symm (mem_leaves_index_iff.mp hleaf).1
  refine ⟨winner, mem_leaves_index_iff.mpr ⟨hne, front, back, hentries, ?_⟩, hfile.symm, ?_⟩
  · -- A later entry at the same node would have been written to the same file.
    intro l hl hsegments
    refine hback l hl ?_
    rw [← hfile, leafPath_eq_place, leafPath_eq_place, hsegments]
  · rw [written_of_not_takesIndexFile hindex]
    exact replay_map_eq_some_iff.mpr ⟨front, winner, back, hentries, hfile, rfl, hback⟩

/-! ## Which entries share a file -/

/-- What the file of a page keeps of its segments: all but the extension of the last. -/
def fileKey (segments : List String) : List String × Option String :=
  (segments.dropLast, segments.getLast?.map fun s => (Path.splitName s).1)

theorem fileKey_concat (front : List String) (last : String) :
    fileKey (front ++ [last]) = (front, some (Path.splitName last).1) := by
  simp [fileKey]

theorem pageName_ofText_inj {a b : String} :
    Path.pageName (Bytes.ofText a) = Path.pageName (Bytes.ofText b) ↔
      (Path.splitName a).1 = (Path.splitName b).1 := by
  unfold Path.pageName
  rw [String.append_assoc, String.append_assoc, String.append_left_inj, Bytes.splitName_ofText,
    Bytes.splitName_ofText, Bytes.ofText_injective.eq_iff]

theorem components_place_eq_iff
    {segments segments' : List String} (hne : segments ≠ []) (hne' : segments' ≠ [])
    (h : ∀ s ∈ segments, IsPlain s) (h' : ∀ s ∈ segments', IsPlain s) :
    (place segments).components = (place segments').components ↔
      fileKey segments = fileKey segments' := by
  obtain ⟨front, last, rfl⟩ := (List.eq_nil_or_concat segments).resolve_left hne
  obtain ⟨front', last', rfl⟩ := (List.eq_nil_or_concat segments').resolve_left hne'
  rw [List.concat_eq_append] at h ⊢
  rw [List.concat_eq_append] at h' ⊢
  rw [components_place_of_isPlain h, components_place_of_isPlain h', fileKey_concat,
    fileKey_concat]
  constructor
  · intro heq
    obtain ⟨hfront, hlast⟩ := List.append_inj' heq (by simp only [List.length_singleton])
    have hnames : front.map Bytes.ofText = front'.map Bytes.ofText :=
      List.map_injective_iff.mpr (fun _ _ => Path.Component.name.inj) hfront
    have hname : Path.pageName (Bytes.ofText last) = Path.pageName (Bytes.ofText last') := by
      simpa only [List.cons.injEq, Path.Component.name.injEq, and_true] using hlast
    rw [List.map_injective_iff.mpr Bytes.ofText_injective hnames, pageName_ofText_inj.mp hname]
  · intro heq
    obtain ⟨rfl, hstem⟩ := Prod.mk.inj heq
    rw [pageName_ofText_inj.mpr (Option.some.inj hstem)]

theorem components_indexName :
    (⟨indexName⟩ : Path).components = (place ["index"]).components := by
  decide +kernel

theorem fileKey_index : fileKey ["index"] = ([], some "index") := by
  decide +kernel

theorem splitName_of_no_dot {s : String} (h : '.' ∉ s.toList) : (Path.splitName s).1 = s := by
  rw [Path.splitName_of_no_inner_dot fun hdot => h (List.mem_of_mem_tail hdot)]

/-- A place whose page is found under the very segments: they are plain names, the last one has no
dot that an extension could replace, and the page is not where the index page goes. -/
structure IsFaithfulPlace (segments : List String) : Prop where
  plain : ∀ s ∈ segments, IsPlain s
  undotted : ∀ s, segments.getLast? = some s → '.' ∉ s.toList
  notIndex : segments ≠ ["index"]

theorem eq_of_fileKey_eq
    {segments segments' : List String}
    (h : ∀ s, segments.getLast? = some s → '.' ∉ s.toList)
    (h' : ∀ s, segments'.getLast? = some s → '.' ∉ s.toList)
    (heq : fileKey segments = fileKey segments') : segments = segments' := by
  have hlast : ∀ {segments : List String},
      (∀ s, segments.getLast? = some s → '.' ∉ s.toList) →
        (fileKey segments).2 = segments.getLast? := by
    intro segments h
    cases hget : segments.getLast? with
    | none => simp [fileKey, hget]
    | some s => simp [fileKey, hget, splitName_of_no_dot (h s hget)]
  have hkey : segments.getLast? = segments'.getLast? := by
    rw [← hlast h, ← hlast h', heq]
  have hfront : segments.dropLast = segments'.dropLast := congrArg Prod.fst heq
  rcases List.eq_nil_or_concat segments with rfl | ⟨front, s, rfl⟩ <;>
    rcases List.eq_nil_or_concat segments' with rfl | ⟨front', s', rfl⟩ <;>
    simp_all

theorem takesIndexFile_iff
    {root : Path} {leaf : Leaf} (hne : leaf.segments root ≠ [])
    (h : ∀ s ∈ leaf.segments root, IsPlain s) :
    TakesIndexFile root leaf ↔ fileKey (leaf.segments root) = ([], some "index") := by
  have hindex : ∀ s ∈ ["index"], IsPlain s := by
    intro s hs
    rw [List.mem_singleton.mp hs]
    exact ⟨by decide +kernel, by decide +kernel⟩
  rw [TakesIndexFile, leafPath_eq_place, components_indexName,
    components_place_eq_iff hne (by simp) h hindex, fileKey_index]

theorem shareFile_iff
    {root : Path} {a b : Leaf} (ha : a.segments root ≠ []) (hb : b.segments root ≠ [])
    (hplain : ∀ s ∈ a.segments root, IsPlain s) (hplain' : ∀ s ∈ b.segments root, IsPlain s) :
    ShareFile root a b ↔ fileKey (a.segments root) = fileKey (b.segments root) := by
  rw [ShareFile, leafPath_eq_place, leafPath_eq_place,
    components_place_eq_iff ha hb hplain hplain']

/-! ## The links of the index -/

/-- The file that the index links to for an entry holds the page of that entry. -/
def LinkHolds (p : Project) (heading : String) (leaf : Leaf) : Prop :=
  p.written heading (leafPath p.root leaf) = some (ofLeaf leaf)

/-- All links hold exactly when entries that share a file have the same page, and an entry in the
file of the index page reads like the index page. -/
theorem forall_linkHolds_iff (p : Project) (heading : String) :
    (∀ leaf ∈ p.index.leaves, p.LinkHolds heading leaf) ↔
      (∀ a ∈ p.index.leaves, ∀ b ∈ p.index.leaves, ShareFile p.root a b →
        ofLeaf a = ofLeaf b) ∧
      ∀ leaf ∈ p.index.leaves, TakesIndexFile p.root leaf →
        ofLeaf leaf = ofIndex heading p.index p.root := by
  constructor
  · intro hlinks
    constructor
    · intro a ha b hb hshare
      have hsame : p.written heading (leafPath p.root a) =
          p.written heading (leafPath p.root b) := by
        unfold written
        rw [hshare]
      rw [hlinks a ha, hlinks b hb] at hsame
      exact Option.some.inj hsame
    · intro leaf hleaf htakes
      have hlink := hlinks leaf hleaf
      rw [LinkHolds, written_of_takesIndexFile htakes] at hlink
      exact (Option.some.inj hlink).symm
  · rintro ⟨hshare, hindex⟩ leaf hleaf
    by_cases htakes : TakesIndexFile p.root leaf
    · rw [LinkHolds, written_of_takesIndexFile htakes, hindex leaf hleaf htakes]
    · -- Whoever wrote the file last is an entry of the index too, and shares the page.
      obtain ⟨winner, hwinner, hfile, hwritten⟩ := exists_leaf_of_written hleaf htakes heading
      rw [LinkHolds, hwritten, hshare leaf hleaf winner hwinner hfile]

theorem linkHolds_of_isFaithfulPlace
    {p : Project} (h : ∀ leaf ∈ p.index.leaves, IsFaithfulPlace (leaf.segments p.root))
    (heading : String) : ∀ leaf ∈ p.index.leaves, p.LinkHolds heading leaf := by
  have hne : ∀ leaf ∈ p.index.leaves, leaf.segments p.root ≠ [] :=
    fun leaf hleaf => (mem_leaves_index_iff.mp hleaf).1
  refine (forall_linkHolds_iff p heading).mpr ⟨?_, ?_⟩
  · intro a ha b hb hshare
    have hkey := (shareFile_iff (hne a ha) (hne b hb) (h a ha).plain (h b hb).plain).mp hshare
    rw [leaf_eq_of_segments_eq ha hb (eq_of_fileKey_eq (h a ha).undotted (h b hb).undotted hkey)]
  · intro leaf hleaf htakes
    have hkey := (takesIndexFile_iff (hne leaf hleaf) (h leaf hleaf).plain).mp htakes
    rw [← fileKey_index] at hkey
    have hdot : ∀ s, ["index"].getLast? = some s → '.' ∉ s.toList := by
      rintro s ⟨⟩
      decide +kernel
    exact absurd (eq_of_fileKey_eq (h leaf hleaf).undotted hdot hkey) (h leaf hleaf).notIndex

/-- Where the links of an index lead.  A link always leads to the page of an entry of the index or
to the index page, and all links lead to their own entries exactly when no two different pages and
no page and the index page meet in a file.  Plain segments meet only in what they keep without the
last extension, so that segments without a dot keep all links. -/
theorem index_links_iff (p : Project) (heading : String) :
    (∀ leaf ∈ p.index.leaves,
      if TakesIndexFile p.root leaf then
        p.written heading (leafPath p.root leaf) = some (ofIndex heading p.index p.root)
      else
        ∃ winner ∈ p.index.leaves, ShareFile p.root leaf winner ∧
          p.written heading (leafPath p.root leaf) = some (ofLeaf winner)) ∧
      ((∀ leaf ∈ p.index.leaves, p.LinkHolds heading leaf) ↔
        (∀ a ∈ p.index.leaves, ∀ b ∈ p.index.leaves, ShareFile p.root a b →
          ofLeaf a = ofLeaf b) ∧
        ∀ leaf ∈ p.index.leaves, TakesIndexFile p.root leaf →
          ofLeaf leaf = ofIndex heading p.index p.root) ∧
      (∀ a ∈ p.index.leaves, (∀ s ∈ a.segments p.root, IsPlain s) →
        (TakesIndexFile p.root a ↔ fileKey (a.segments p.root) = ([], some "index")) ∧
        ∀ b ∈ p.index.leaves, (∀ s ∈ b.segments p.root, IsPlain s) →
          (ShareFile p.root a b ↔ fileKey (a.segments p.root) = fileKey (b.segments p.root))) ∧
      ((∀ leaf ∈ p.index.leaves, IsFaithfulPlace (leaf.segments p.root)) →
        ∀ leaf ∈ p.index.leaves, p.LinkHolds heading leaf) := by
  have hne : ∀ leaf ∈ p.index.leaves, leaf.segments p.root ≠ [] :=
    fun leaf hleaf => (mem_leaves_index_iff.mp hleaf).1
  refine ⟨?_, forall_linkHolds_iff p heading, ?_, fun h => linkHolds_of_isFaithfulPlace h heading⟩
  · intro leaf hleaf
    split_ifs with htakes
    · exact written_of_takesIndexFile htakes heading
    · exact exists_leaf_of_written hleaf htakes heading
  · intro a ha hplain
    refine ⟨takesIndexFile_iff (hne a ha) hplain, fun b hb hplain' => ?_⟩
    exact shareFile_iff (hne a ha) (hne b hb) hplain hplain'

/-- Two versions of a document and a document named like the index page. -/
def versioned : Project :=
  { root := ⟨"p"⟩
    documents :=
      [⟨⟨"p/v1.2.md"⟩, "two"⟩, ⟨⟨"p/v1.3.md"⟩, "three"⟩, ⟨⟨"p/index.md"⟩, "hello"⟩] }

/-- Both versions stand in the index, and the first one's link leads to the second; the link of the
third document leads to the index page. -/
theorem versioned_links_lost :
    versioned.index.leaves = [.document ⟨⟨"p/index.md"⟩, "hello"⟩,
        .document ⟨⟨"p/v1.2.md"⟩, "two"⟩, .document ⟨⟨"p/v1.3.md"⟩, "three"⟩] ∧
      versioned.written "p" (documentPath ⟨"p"⟩ ⟨⟨"p/v1.2.md"⟩, "two"⟩) = some "three" ∧
      versioned.written "p" (documentPath ⟨"p"⟩ ⟨⟨"p/index.md"⟩, "hello"⟩) =
        some (ofIndex "p" versioned.index ⟨"p"⟩) := by
  decide +kernel

end Project

end MarkerDoc
