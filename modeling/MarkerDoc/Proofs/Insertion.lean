import MarkerDoc.Proofs.Index

/-!
# Runs of insertions

After any sequence of insertions into the empty index, the tree stands for the map that keeps the
last entry written at each path.  Its nodes are the fronts of the paths that were written to, so
looking up a path tells whether anything was ever put at it or behind it.  It follows that no node
but the root is bare: the entry that a node was made for is still there, or another one that took
its place.
-/

namespace MarkerDoc

namespace Forest

/-! ## The nodes of a forest -/

/-- A node stands at the path of a segment and the segments after it. -/
def HasNode (f : Forest) (segment : String) (rest : List String) : Prop :=
  ((f.find? segment).bind fun child => child.get? rest).isSome = true

theorem not_hasNode_nil (segment : String) (rest : List String) :
    ¬ Forest.nil.HasNode segment rest := by
  simp [HasNode, find?]

theorem hasNode_tree_self
    (k s : String) (l : Option Leaf) (below after : Forest) (rest : List String) :
    (tree k s l below after).HasNode k rest ↔
      match rest with
      | [] => True
      | next :: rest' => below.HasNode next rest' := by
  cases rest <;> simp [HasNode, find?, Index.get?]

theorem hasNode_tree_of_ne
    {segment k : String} (h : segment ≠ k) (s : String) (l : Option Leaf) (below after : Forest)
    (rest : List String) :
    (tree k s l below after).HasNode segment rest ↔ after.HasNode segment rest := by
  simp [HasNode, find?, h]

theorem HasNode.mem_keys
    {f : Forest} {segment : String} {rest : List String} (h : f.HasNode segment rest) :
    segment ∈ f.keys := by
  rw [← isSome_find?_iff]
  unfold HasNode at h
  cases hfind : f.find? segment with
  | none => simp [hfind] at h
  | some child => rfl

/-- What an insertion gives back is the entry that stood at its path. -/
theorem Sorted.exchange_fst
    {f : Forest} (h : f.Sorted) (segment : String) (rest : List String) (leaf : Leaf) :
    (f.exchange segment rest leaf).1 = f.leafAt? segment rest := by
  induction f generalizing segment rest with
  | nil =>
      rw [exchange.eq_def, leafAt?_nil]
  | tree k s l below after ihbelow ihafter =>
      rw [exchange.eq_def]
      by_cases hk : segment = k
      · subst hk
        rw [leafAt?_tree_self]
        cases rest with
        | nil => simp
        | cons next rest => simp [ihbelow h.2.1]
      · by_cases hless : segment < k
        · rw [leafAt?_eq_none_of_not_mem (h.not_mem_of_lt hless)]
          simp [hk, hless]
        · rw [leafAt?_tree_of_ne hk]
          simp [hk, hless, ihafter h.2.2]

theorem Sorted.pairwise_keys {f : Forest} (h : f.Sorted) : f.keys.Pairwise (· < ·) := by
  induction f with
  | nil => exact .nil
  | tree k s l below after _ ih => exact .cons h.1 (ih h.2.2)

theorem Sorted.of_find?
    {f : Forest} (h : f.Sorted) {key : String} {child : Index}
    (hfind : f.find? key = some child) : child.below.Sorted := by
  induction f with
  | nil =>
      simp [find?] at hfind
  | tree k s l below after _ ih =>
      by_cases hk : key = k
      · simp only [find?, hk, if_true, Option.some.injEq] at hfind
        rw [← hfind]
        exact h.2.1
      · simp only [find?, hk, if_false] at hfind
        exact ih h.2.2 hfind

theorem Sorted.child {f : Forest} (h : f.Sorted) (segment : String) :
    ((f.find? segment).getD { segment }).below.Sorted := by
  cases hfind : f.find? segment with
  | none => exact sorted_nil
  | some child => exact h.of_find? hfind

/-- What is found under a key carries it for its segment. -/
theorem Keyed.of_find?
    {f : Forest} (h : f.Keyed) {key : String} {child : Index}
    (hfind : f.find? key = some child) : child.segment = key ∧ child.below.Keyed := by
  induction f with
  | nil =>
      simp [find?] at hfind
  | tree k s l below after _ ih =>
      by_cases hk : key = k
      · simp only [find?, hk, if_true, Option.some.injEq] at hfind
        rw [← hfind, hk]
        exact ⟨h.1, h.2.1⟩
      · simp only [find?, hk, if_false] at hfind
        exact ih h.2.2 hfind

end Forest

namespace Index

/-! ## One insertion -/

section

variable {i : Index}

theorem get?_append (i : Index) (front rest : List String) :
    i.get? (front ++ rest) = (i.get? front).bind fun node => node.get? rest := by
  induction front generalizing i with
  | nil => simp [get?]
  | cons segment front ih => simp [get?, Option.bind_assoc, ih]

theorem isSome_get?_cons (i : Index) (segment : String) (rest : List String) :
    (i.get? (segment :: rest)).isSome = true ↔ i.below.HasNode segment rest :=
  Iff.rfl

/-- What passes from a forest to the forests below its trees holds below every node. -/
theorem below_get?
    {P : Forest → Prop}
    (hfind : ∀ (f : Forest) (key : String) (child : Index), P f → f.find? key = some child →
      P child.below)
    (h : P i.below) {segments : List String} {node : Index} (hget : i.get? segments = some node) :
    P node.below := by
  induction segments generalizing i with
  | nil =>
      rw [get?, Option.some.injEq] at hget
      exact hget ▸ h
  | cons segment rest ih =>
      rw [get?, Option.bind_eq_some_iff] at hget
      obtain ⟨child, hchild, hget⟩ := hget
      exact ih (hfind i.below segment child h hchild) hget

theorem sorted_get?
    (h : i.below.Sorted) {segments : List String} {node : Index}
    (hget : i.get? segments = some node) : node.below.Sorted :=
  below_get? (fun _ _ _ hsorted hchild => hsorted.of_find? hchild) h hget

theorem keyed_get?
    (h : i.below.Keyed) {segments : List String} {node : Index}
    (hget : i.get? segments = some node) : node.below.Keyed :=
  below_get? (fun _ _ _ hkeyed hchild => (hkeyed.of_find? hchild).2) h hget

theorem below_insert_cons (i : Index) (leaf : Leaf) (segment : String) (rest : List String) :
    (i.insert leaf (segment :: rest)).below = i.below.insert segment rest leaf :=
  rfl

/-- An insertion changes the entry at its own path alone. -/
theorem leafAt?_insert
    (h : i.below.Sorted) (leaf : Leaf) (segments other : List String) :
    (i.insert leaf segments).leafAt? other =
      if other = segments then some leaf else i.leafAt? other := by
  induction segments generalizing i other with
  | nil =>
      cases other with
      | nil => simp [insert, exchange, leafAt?, get?]
      | cons segment' rest' =>
          rw [leafAt?_cons, leafAt?_cons]
          simp [insert, exchange]
  | cons segment rest ih =>
      cases other with
      | nil => simp [insert, exchange, leafAt?, get?]
      | cons segment' rest' =>
          rw [leafAt?_cons, leafAt?_cons, below_insert_cons, Forest.leafAt?, h.find?_insert,
            Forest.leafAt?]
          by_cases hs : segment' = segment
          · subst hs
            rw [if_pos rfl, Option.bind_some, ih (h.child segment')]
            cases i.below.find? segment' with
            | none => cases rest' <;> simp [leafAt?, get?, Forest.find?]
            | some child => simp
          · simp [hs]

/-- An insertion makes the nodes on the way to its path and no others. -/
theorem isSome_get?_insert
    (h : i.below.Sorted) (leaf : Leaf) (segments other : List String) :
    ((i.insert leaf segments).get? other).isSome = true ↔
      other <+: segments ∨ (i.get? other).isSome = true := by
  induction segments generalizing i other with
  | nil =>
      cases other with
      | nil => simp [get?]
      | cons segment' rest' => simp [get?, insert, exchange]
  | cons segment rest ih =>
      cases other with
      | nil => simp [get?]
      | cons segment' rest' =>
          rw [get?, get?, below_insert_cons, h.find?_insert, List.cons_prefix_cons]
          by_cases hs : segment' = segment
          · subst hs
            rw [if_pos rfl, Option.bind_some, ih (h.child segment')]
            cases i.below.find? segment' with
            | none => cases rest' <;> simp [get?, Forest.find?]
            | some child => simp
          · simp [hs]

theorem exchange_fst
    (h : i.below.Sorted) (leaf : Leaf) (segments : List String) :
    (i.exchange leaf segments).1 = i.leafAt? segments := by
  cases segments with
  | nil => simp [exchange, leafAt?, get?]
  | cons segment rest =>
      rw [leafAt?_cons]
      exact h.exchange_fst segment rest leaf

end

/-! ## A run of insertions -/

/-- The index after some insertions, each given by its path and its entry. -/
def inserted (calls : List (List String × Leaf)) : Index :=
  calls.foldl (fun i call => i.insert call.2 call.1) .empty

theorem inserted_append_singleton
    (calls : List (List String × Leaf)) (call : List String × Leaf) :
    inserted (calls ++ [call]) = (inserted calls).insert call.2 call.1 := by
  simp [inserted]

/-- What every insertion keeps holds after any run of them. -/
theorem below_inserted
    {P : Forest → Prop} (hnil : P .nil)
    (hinsert : ∀ (f : Forest) (segment : String) (rest : List String) (leaf : Leaf), P f →
      P (f.insert segment rest leaf))
    (calls : List (List String × Leaf)) : P (inserted calls).below := by
  induction calls using List.reverseRecOn with
  | nil =>
      exact hnil
  | append_singleton calls call ih =>
      obtain ⟨path, leaf⟩ := call
      rw [inserted_append_singleton]
      cases path with
      | nil => exact ih
      | cons segment rest => exact hinsert (inserted calls).below segment rest leaf ih

theorem sorted_inserted (calls : List (List String × Leaf)) : (inserted calls).below.Sorted :=
  below_inserted Forest.sorted_nil (fun _ segment rest leaf h => h.insert segment rest leaf) calls

theorem keyed_inserted (calls : List (List String × Leaf)) : (inserted calls).below.Keyed :=
  below_inserted Forest.keyed_nil (fun _ segment rest leaf h => h.insert segment rest leaf) calls

theorem leafAt?_inserted (calls : List (List String × Leaf)) (segments : List String) :
    (inserted calls).leafAt? segments = replay calls segments := by
  induction calls using List.reverseRecOn with
  | nil =>
      cases segments <;> rfl
  | append_singleton calls call ih =>
      rw [inserted_append_singleton, leafAt?_insert (sorted_inserted calls),
        replay_append_singleton, Function.update_apply, ih]

theorem isSome_get?_inserted (calls : List (List String × Leaf)) (segments : List String) :
    ((inserted calls).get? segments).isSome = true ↔
      segments = [] ∨ ∃ call ∈ calls, segments <+: call.1 := by
  induction calls using List.reverseRecOn with
  | nil =>
      cases segments with
      | nil => simp [get?]
      | cons segment rest => simp [isSome_get?_cons, inserted, empty, Forest.not_hasNode_nil]
  | append_singleton calls call ih =>
      rw [inserted_append_singleton, isSome_get?_insert (sorted_inserted calls), ih]
      simp only [List.mem_append, List.mem_singleton, or_and_right, exists_or, exists_eq_left]
      exact or_left_comm.trans (or_congr_right or_comm)

/-- The tree stands for the map that keeps the last entry at each path, and every insertion into it
acts on that map alone. -/
structure RefinesMap (index : Index) (calls : List (List String × Leaf)) : Prop where
  /-- The nodes are the fronts of the paths written to. -/
  present : ∀ segments, (index.get? segments).isSome = true ↔
    segments = [] ∨ ∃ call ∈ calls, segments <+: call.1
  leaf : ∀ segments node, index.get? segments = some node → node.leaf = replay calls segments
  /-- An insertion gives back the entry that the map held at its path. -/
  held : ∀ segments leaf, (index.exchange leaf segments).1 = replay calls segments
  /-- An insertion leaves the entries at all other paths as they are. -/
  frame : ∀ segments leaf other, other ≠ segments →
    (index.exchange leaf segments).2.leafAt? other = index.leafAt? other
  /-- The children of a node have different keys, and each carries its own for a segment. -/
  keyed : ∀ segments node, index.get? segments = some node →
    node.below.keys.Pairwise (· < ·) ∧
      (∀ key, key ∈ node.below.keys ↔ (node.below.find? key).isSome = true) ∧
      ∀ key child, node.below.find? key = some child → child.segment = key
  /-- Every node but the root has an entry at or below it. -/
  occupied : ∀ segments node, segments ≠ [] → index.get? segments = some node →
    ∃ rest leaf, node.leafAt? rest = some leaf

theorem refinesMap_inserted (calls : List (List String × Leaf)) :
    RefinesMap (inserted calls) calls := by
  have hsorted := sorted_inserted calls
  have hkeyed := keyed_inserted calls
  constructor
  · exact isSome_get?_inserted calls
  · intro segments node hget
    rw [← leafAt?_inserted, leafAt?, hget]
    rfl
  · intro segments leaf
    rw [exchange_fst hsorted, leafAt?_inserted]
  · intro segments leaf other hne
    exact (leafAt?_insert hsorted leaf segments other).trans (if_neg hne)
  · intro segments node hget
    exact ⟨(sorted_get? hsorted hget).pairwise_keys,
      fun key => (Forest.isSome_find?_iff node.below key).symm,
      fun key child hfind => ((keyed_get? hkeyed hget).of_find? hfind).1⟩
  · -- The node was made on the way to some path, and that path still holds an entry.
    intro segments node hne hget
    have hpresent := (isSome_get?_inserted calls segments).mp (by rw [hget]; rfl)
    obtain ⟨call, hcall, rest, hrest⟩ := hpresent.resolve_left hne
    obtain ⟨leaf, hleaf⟩ :=
      Option.isSome_iff_exists.mp ((isSome_replay_iff calls call.1).mpr ⟨call, hcall, rfl⟩)
    refine ⟨rest, leaf, ?_⟩
    rw [← leafAt?_inserted, ← hrest, leafAt?, get?_append, hget] at hleaf
    exact hleaf

end Index

end MarkerDoc
