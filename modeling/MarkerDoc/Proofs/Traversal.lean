import MarkerDoc.Proofs.ByteOrder
import MarkerDoc.Proofs.Insertion

/-!
# The walk through the index

A walk shows the nodes of a tree without their paths, only with depths and segments.  This file
gives each visit its path, the keys on the way to the node.  The paths come in increasing order, a
node before the nodes below it and the trees of a forest one after the other, so that the walk meets
every node once and the entries appear in the order of their paths.  Conversely a path is the front
of the path before it, as long as the depth, with one more segment; where nodes carry their keys,
depths and segments alone therefore tell which nodes there are.
-/

namespace MarkerDoc

namespace Forest

/-! ## Paths in walk order -/

/-- The paths of all nodes, in the order of the walk. -/
def paths : Forest → List (List String)
  | .nil => []
  | .tree key _ _ below after =>
    [key] :: (below.paths.map (key :: ·) ++ after.paths)

/-- The node at a path. -/
def get? (f : Forest) : List String → Option Index
  | [] => none
  | segment :: rest => (f.find? segment).bind fun child => child.get? rest

theorem exists_head_of_mem_paths {f : Forest} {path : List String} (h : path ∈ f.paths) :
    ∃ segment rest, path = segment :: rest ∧ segment ∈ f.keys := by
  induction f with
  | nil =>
      simp [paths] at h
  | tree k s l below after _ ih =>
      rw [paths, List.mem_cons, List.mem_append, List.mem_map] at h
      rcases h with rfl | ⟨rest, -, rfl⟩ | h
      · exact ⟨k, [], rfl, List.mem_cons_self⟩
      · exact ⟨k, rest, rfl, List.mem_cons_self⟩
      · obtain ⟨segment, rest, rfl, hmem⟩ := ih h
        exact ⟨segment, rest, rfl, List.mem_cons_of_mem k hmem⟩

theorem ne_nil_of_mem_paths {f : Forest} {path : List String} (h : path ∈ f.paths) :
    path ≠ [] := by
  obtain ⟨segment, rest, rfl, -⟩ := exists_head_of_mem_paths h
  exact List.cons_ne_nil segment rest

theorem mem_keys_of_get?
    {f : Forest} {segment : String} {rest : List String} {node : Index}
    (h : f.get? (segment :: rest) = some node) : segment ∈ f.keys := by
  have hnode : f.HasNode segment rest := Option.isSome_of_eq_some h
  exact hnode.mem_keys

theorem get?_tree_self
    (k s : String) (l : Option Leaf) (below after : Forest) (rest : List String) :
    (tree k s l below after).get? (k :: rest) =
      match rest with
      | [] => some { segment := s, leaf := l, below }
      | next :: rest' => below.get? (next :: rest') := by
  cases rest <;> simp [get?, find?, Index.get?]

theorem get?_tree_of_ne
    {segment k : String} (h : segment ≠ k) (s : String) (l : Option Leaf) (below after : Forest)
    (rest : List String) :
    (tree k s l below after).get? (segment :: rest) = after.get? (segment :: rest) := by
  simp [get?, find?, h]

/-- A visit shows the node at a path with the depth and the segment that belong to the path. -/
structure Shows (f : Forest) (depth : Nat) (path : List String) (visit : Nat × Index) : Prop where
  depth_eq : visit.1 + 1 = depth + path.length
  segment_eq : path.getLast? = some visit.2.segment
  node_eq : f.get? path = some visit.2

theorem Shows.below
    {below : Forest} {depth : Nat} {path : List String} {visit : Nat × Index}
    (h : below.Shows (depth + 1) path visit) (k s : String) (l : Option Leaf)
    (after : Forest) : (tree k s l below after).Shows depth (k :: path) visit := by
  obtain ⟨hdepth, hsegment, hnode⟩ := h
  cases path with
  | nil => simp at hsegment
  | cons next rest =>
      refine ⟨?_, ?_, ?_⟩
      · rw [hdepth]
        simp only [List.length_cons]
        omega
      · rw [List.getLast?_cons_cons, hsegment]
      · rw [get?_tree_self]
        exact hnode

theorem Shows.after
    {after : Forest} {depth : Nat} {path : List String} {visit : Nat × Index}
    (h : after.Shows depth path visit) {k s : String} {l : Option Leaf} {below : Forest}
    (hsorted : (tree k s l below after).Sorted) :
    (tree k s l below after).Shows depth path visit := by
  obtain ⟨hdepth, hsegment, hnode⟩ := h
  cases path with
  | nil => simp at hsegment
  | cons segment rest =>
      have hne : segment ≠ k := (hsorted.1 segment (mem_keys_of_get? hnode)).ne'
      exact ⟨hdepth, hsegment, (get?_tree_of_ne hne ..).trans hnode⟩

/-- The visits of a walk show the nodes at the paths of the forest, one after the other. -/
theorem Sorted.forall₂_shows {f : Forest} (h : f.Sorted) (hkeyed : f.Keyed) (depth : Nat) :
    List.Forall₂ (f.Shows depth) f.paths (f.walkFrom depth) := by
  induction f generalizing depth with
  | nil =>
      exact .nil
  | tree k s l below after ihbelow ihafter =>
      have hself : (tree k s l below after).Shows depth [k]
          (depth, { segment := s, leaf := l, below }) :=
        ⟨rfl, congrArg some hkeyed.1.symm, get?_tree_self ..⟩
      have hbelow : List.Forall₂ ((tree k s l below after).Shows depth)
          (below.paths.map (k :: ·)) (below.walkFrom (depth + 1)) := by
        rw [List.forall₂_map_left_iff]
        exact (ihbelow h.2.1 hkeyed.2.1 (depth + 1)).imp fun _ _ hshows =>
          hshows.below k s l after
      have hafter : List.Forall₂ ((tree k s l below after).Shows depth)
          after.paths (after.walkFrom depth) :=
        (ihafter h.2.2 hkeyed.2.2 depth).imp fun _ _ hshows => hshows.after h
      exact .cons hself (List.rel_append hbelow hafter)

theorem Sorted.mem_paths_iff {f : Forest} (h : f.Sorted) (path : List String) :
    path ∈ f.paths ↔ (f.get? path).isSome = true := by
  induction f generalizing path with
  | nil =>
      cases path <;> simp [paths, get?, find?]
  | tree k s l below after ihbelow ihafter =>
      rw [paths, List.mem_cons, List.mem_append, List.mem_map]
      cases path with
      | nil =>
          have hafter := mt (@ne_nil_of_mem_paths after []) (by simp)
          simp [get?, hafter]
      | cons segment rest =>
          by_cases hk : segment = k
          · subst hk
            have hafter : segment :: rest ∉ after.paths := by
              intro hmem
              obtain ⟨t, rest', heq, ht⟩ := exists_head_of_mem_paths hmem
              obtain ⟨rfl, -⟩ := List.cons.inj heq
              exact h.not_mem_after ht
            cases rest with
            | nil => simp [get?_tree_self]
            | cons next rest => simp [get?_tree_self, hafter, ihbelow h.2.1]
          · rw [get?_tree_of_ne hk, ← ihafter h.2.2]
            simp [hk, Ne.symm hk]

theorem Sorted.pairwise_paths {f : Forest} (h : f.Sorted) : f.paths.Pairwise (· < ·) := by
  induction f with
  | nil =>
      exact .nil
  | tree k s l below after ihbelow ihafter =>
      have hlater : ∀ path ∈ after.paths, ∀ rest, k :: rest < path := by
        intro path hpath rest
        obtain ⟨segment, rest', rfl, hmem⟩ := exists_head_of_mem_paths hpath
        exact List.cons_lt_cons_iff.mpr (.inl (h.1 segment hmem))
      have hdeeper : ∀ path ∈ below.paths, [k] < k :: path := by
        intro path hpath
        obtain ⟨segment, rest, rfl, -⟩ := exists_head_of_mem_paths hpath
        exact List.cons_lt_cons_iff.mpr (.inr ⟨rfl, List.nil_lt_cons ..⟩)
      refine List.pairwise_cons.mpr ⟨?_, List.pairwise_append.mpr ⟨?_, ihafter h.2.2, ?_⟩⟩
      · intro path hpath
        rcases List.mem_append.mp hpath with hpath | hpath
        · obtain ⟨rest, hrest, rfl⟩ := List.mem_map.mp hpath
          exact hdeeper rest hrest
        · exact hlater path hpath []
      · rw [List.pairwise_map]
        exact (ihbelow h.2.1).imp fun hlt => List.cons_lt_cons_iff.mpr (.inr ⟨rfl, hlt⟩)
      · intro path hpath path' hpath'
        obtain ⟨rest, -, rfl⟩ := List.mem_map.mp hpath
        exact hlater path' hpath' rest

/-! ## Paths from depths and segments -/

/-- The paths that depths and segments spell behind a path: each keeps as much of the path before it
as the depth says. -/
def spelled (path : List String) : List (Nat × String) → List (List String)
  | [] => []
  | (depth, segment) :: rest =>
    (path.take depth ++ [segment]) :: spelled (path.take depth ++ [segment]) rest

/-- What a walk shows of the nodes besides their entries. -/
def outline (visits : List (Nat × Index)) : List (Nat × String) :=
  visits.map fun visit => (visit.1, visit.2.segment)

/-- The walk of a forest spells its paths, and leaves behind a path with the same front. -/
theorem Keyed.exists_spelled_outline_append
    {f : Forest} (hkeyed : f.Keyed) {front path : List String} (hfront : front <+: path)
    (rest : List (Nat × String)) :
    ∃ path', front <+: path' ∧
      spelled path (outline (f.walkFrom front.length) ++ rest) =
        f.paths.map (front ++ ·) ++ spelled path' rest := by
  induction f generalizing front path rest with
  | nil =>
      exact ⟨path, hfront, rfl⟩
  | tree k s l below after ihbelow ihafter =>
      obtain ⟨rfl, hkeyedbelow, hkeyedafter⟩ := hkeyed
      have hlength : (front ++ [s]).length = front.length + 1 := by simp
      obtain ⟨middle, hmiddle, hbelow⟩ := ihbelow hkeyedbelow (List.prefix_refl (front ++ [s]))
        (outline (after.walkFrom front.length) ++ rest)
      obtain ⟨last, hlast, hafter⟩ :=
        ihafter hkeyedafter ((List.prefix_append front [s]).trans hmiddle) rest
      refine ⟨last, hlast, ?_⟩
      have htake : path.take front.length = front := (List.prefix_iff_eq_take.mp hfront).symm
      have hsteps : outline ((tree s s l below after).walkFrom front.length) ++ rest =
          (front.length, s) :: (outline (below.walkFrom (front ++ [s]).length) ++
            (outline (after.walkFrom front.length) ++ rest)) := by
        simp [outline, walkFrom]
      rw [hsteps, spelled, htake, hbelow, hafter, paths]
      simp

theorem Keyed.spelled_outline {f : Forest} (hkeyed : f.Keyed) :
    spelled [] (outline (f.walkFrom 0)) = f.paths := by
  obtain ⟨last, -, h⟩ := hkeyed.exists_spelled_outline_append (List.prefix_refl []) []
  simpa [spelled] using h

end Forest

namespace Index

/-! ## The walk of an index -/

/-- Paths are ordered segment by segment, and segments by their bytes. -/
def PathLt : List String → List String → Prop :=
  List.Lex fun a b => Text.bytes a < Text.bytes b

theorem pathLt_iff {path path' : List String} : PathLt path path' ↔ path < path' := by
  unfold PathLt
  simp only [Text.bytes_lt_bytes_iff]
  exact (List.lt_iff_lex_lt path path').symm

/-- The walk of an index, told with the paths of the nodes that it visits. -/
structure Traverses (i : Index) (paths : List (List String)) : Prop where
  /-- Each visit is to the node at its path, and is one level less deep than the path is long. -/
  visits : List.Forall₂
    (fun path visit => visit.1 + 1 = path.length ∧ path.getLast? = some visit.2.segment ∧
      i.get? path = some visit.2) paths i.walk
  nodes : ∀ path, path ∈ paths ↔ path ≠ [] ∧ (i.get? path).isSome = true
  once : paths.Nodup
  /-- The nodes on the way to a node are visited before it. -/
  parentsFirst : ∀ before path behind, paths = before ++ path :: behind →
    ∀ front, front ≠ [] → front <+: path → front ≠ path → front ∈ before
  increasing : paths.Pairwise PathLt
  /-- The entries come in the order of their paths, and no other path holds one. -/
  entries : ∃ stored : List (List String × Leaf),
    i.leaves = stored.map Prod.snd ∧ (stored.map Prod.fst).Pairwise PathLt ∧
      ∀ path leaf, (path, leaf) ∈ stored ↔ path ≠ [] ∧ i.leafAt? path = some leaf
  spelled : Forest.spelled [] (Forest.outline i.walk) = paths

section

variable {i : Index}

theorem get?_eq_of_ne_nil (i : Index) {path : List String} (h : path ≠ []) :
    i.get? path = i.below.get? path := by
  obtain ⟨segment, rest, rfl⟩ := List.exists_cons_of_ne_nil h
  rfl

theorem isSome_get?_of_isPrefix
    {front path : List String} (hfront : front <+: path) (h : (i.get? path).isSome = true) :
    (i.get? front).isSome = true := by
  obtain ⟨rest, rfl⟩ := hfront
  rw [get?_append] at h
  exact Option.isSome_of_isSome_bind h

variable (h : i.below.Sorted)
include h

theorem mem_paths_iff (path : List String) :
    path ∈ i.below.paths ↔ path ≠ [] ∧ (i.get? path).isSome = true := by
  constructor
  · intro hpath
    have hne := Forest.ne_nil_of_mem_paths hpath
    rw [get?_eq_of_ne_nil i hne]
    exact ⟨hne, (h.mem_paths_iff path).mp hpath⟩
  · rintro ⟨hne, hsome⟩
    rw [get?_eq_of_ne_nil i hne] at hsome
    exact (h.mem_paths_iff path).mpr hsome

variable (hkeyed : i.below.Keyed)
include hkeyed

theorem forall₂_walk :
    List.Forall₂
      (fun path visit => visit.1 + 1 = path.length ∧ path.getLast? = some visit.2.segment ∧
        i.get? path = some visit.2) i.below.paths i.walk := by
  refine (h.forall₂_shows hkeyed 0).imp fun path visit hshows => ?_
  have hne : path ≠ [] := by
    rintro rfl
    simpa using hshows.segment_eq
  exact ⟨hshows.depth_eq.trans (Nat.zero_add _), hshows.segment_eq,
    (get?_eq_of_ne_nil i hne).trans hshows.node_eq⟩

/-- The entries of the walk are those at the paths of the nodes. -/
theorem leaves_eq_filterMap : i.leaves = i.below.paths.filterMap i.leafAt? := by
  have hwalk := forall₂_walk h hkeyed
  rw [leaves]
  generalize i.below.paths = paths at hwalk
  generalize i.walk = visits at hwalk
  induction hwalk with
  | nil => rfl
  | @cons path visit paths visits hvisit _ ih =>
      have hleaf : i.leafAt? path = visit.2.leaf := by
        rw [leafAt?, hvisit.2.2]
        rfl
      rw [List.filterMap_cons, List.filterMap_cons, hleaf, ih]

/-- The paths that hold entries, with their entries. -/
theorem exists_entries :
    ∃ stored : List (List String × Leaf),
      i.leaves = stored.map Prod.snd ∧ (stored.map Prod.fst).Pairwise PathLt ∧
        ∀ path leaf, (path, leaf) ∈ stored ↔ path ≠ [] ∧ i.leafAt? path = some leaf := by
  refine ⟨i.below.paths.filterMap fun path => (i.leafAt? path).map (path, ·), ?_, ?_, ?_⟩
  · rw [leaves_eq_filterMap h hkeyed, List.map_filterMap]
    congr 1
    funext path
    cases i.leafAt? path <;> rfl
  · have hkeep : (fun path => ((i.leafAt? path).map (path, ·)).map Prod.fst) =
        Option.guard fun path => (i.leafAt? path).isSome := by
      funext path
      cases hleaf : i.leafAt? path <;> simp [Option.guard, hleaf]
    rw [List.map_filterMap, hkeep, List.filterMap_eq_filter]
    exact (h.pairwise_paths.imp pathLt_iff.mpr).sublist List.filter_sublist
  · intro path leaf
    simp only [List.mem_filterMap, Option.map_eq_some_iff, Prod.mk.injEq]
    constructor
    · rintro ⟨path', hpath, leaf', hleaf, rfl, rfl⟩
      exact ⟨Forest.ne_nil_of_mem_paths hpath, hleaf⟩
    · rintro ⟨hne, hleaf⟩
      have hnode : (i.get? path).isSome = true :=
        Option.isSome_of_isSome_bind (Option.isSome_of_eq_some hleaf)
      exact ⟨path, (mem_paths_iff h path).mpr ⟨hne, hnode⟩, leaf, hleaf, rfl, rfl⟩

theorem traverses_of_sorted : Traverses i i.below.paths where
  visits := forall₂_walk h hkeyed
  nodes := mem_paths_iff h
  once := h.pairwise_paths.nodup
  parentsFirst := by
    intro before path behind hpaths front hne hfront hproper
    have hpath : path ∈ i.below.paths := by simp [hpaths]
    have hmem : front ∈ i.below.paths := by
      rw [mem_paths_iff h]
      exact ⟨hne, isSome_get?_of_isPrefix hfront ((mem_paths_iff h path).mp hpath).2⟩
    rw [hpaths, List.mem_append, List.mem_cons] at hmem
    rcases hmem with hmem | rfl | hmem
    · exact hmem
    · exact absurd rfl hproper
    · -- Whatever comes behind a path is larger, and its fronts are not.
      have hsorted := h.pairwise_paths
      rw [hpaths, List.pairwise_append, List.pairwise_cons] at hsorted
      exact absurd (hsorted.2.1.1 front hmem) hfront.le
  increasing := h.pairwise_paths.imp pathLt_iff.mpr
  entries := exists_entries h hkeyed
  spelled := hkeyed.spelled_outline

end

theorem Traverses.outline_eq {i : Index} {paths : List (List String)} (h : Traverses i paths) :
    Forest.outline i.walk = paths.map fun path => (path.length - 1, path.getLast?.getD "") := by
  have hvisits := h.visits
  clear h
  generalize i.walk = visits at hvisits
  induction hvisits with
  | nil => rfl
  | @cons path visit paths visits hvisit _ ih =>
      obtain ⟨hdepth, hsegment, -⟩ := hvisit
      rw [Forest.outline, List.map_cons, List.map_cons, hsegment, ← hdepth, ← ih]
      rfl

/-- Depths and segments tell the nodes of a tree, and nothing else. -/
theorem outline_eq_iff
    {i j : Index} (hi : i.below.Sorted) (hkeyed : i.below.Keyed) (hj : j.below.Sorted)
    (hkeyed' : j.below.Keyed) :
    Forest.outline i.walk = Forest.outline j.walk ↔
      ∀ path, (i.get? path).isSome = (j.get? path).isSome := by
  have htraverses := traverses_of_sorted hi hkeyed
  have htraverses' := traverses_of_sorted hj hkeyed'
  constructor
  · intro houtline path
    have hpaths : i.below.paths = j.below.paths := by
      rw [← htraverses.spelled, houtline, htraverses'.spelled]
    cases path with
    | nil => rfl
    | cons segment rest =>
        have hmem := htraverses.nodes (segment :: rest)
        rw [hpaths, htraverses'.nodes] at hmem
        simpa using hmem.symm
  · intro hnodes
    have hpaths : i.below.paths = j.below.paths := by
      refine hi.pairwise_paths.eq_of_mem_iff hj.pairwise_paths fun path => ?_
      rw [htraverses.nodes, htraverses'.nodes, hnodes]
    rw [htraverses.outline_eq, htraverses'.outline_eq, hpaths]

/-- After any insertions the walk is a traversal of the tree in the order of the paths, and what it
shows of depths and segments tells apart any two trees with different nodes. -/
theorem walk_traverses_inserted (calls : List (List String × Leaf)) :
    (∃ paths, Traverses (inserted calls) paths) ∧
      ∀ calls', Forest.outline (inserted calls).walk = Forest.outline (inserted calls').walk ↔
        ∀ path, ((inserted calls).get? path).isSome = ((inserted calls').get? path).isSome :=
  ⟨⟨_, traverses_of_sorted (sorted_inserted calls) (keyed_inserted calls)⟩, fun calls' =>
    outline_eq_iff (sorted_inserted calls) (keyed_inserted calls) (sorted_inserted calls')
      (keyed_inserted calls')⟩

end Index

end MarkerDoc
