import MarkerDoc.Page
import MarkerDoc.Proofs.Insertion

/-!
# The index and the order of its entries

A forest in order whose nodes carry their keys is determined by its nodes and its entries, and both
can be read off the map that the insertions leave.  So the tree forgets everything about its
insertions but that map: in which order they came, which nodes were made on the way to others, and
which entries were overwritten.  Permuting entries with different places does not change the map,
and with it neither the tree nor the page that is made of it.
-/

namespace MarkerDoc

/-! ## What replaying keeps of a list -/

section

variable {κ ν : Type} [DecidableEq κ]

theorem replay_eq_some_iff_mem
    {writes : List (κ × ν)} (hdistinct : (writes.map Prod.fst).Nodup) (k : κ) (v : ν) :
    replay writes k = some v ↔ (k, v) ∈ writes := by
  rw [replay_eq_some_iff]
  constructor
  · rintro ⟨front, back, rfl, -⟩
    simp
  · intro hmem
    obtain ⟨front, back, rfl⟩ := List.append_of_mem hmem
    refine ⟨front, back, rfl, ?_⟩
    intro w hw heq
    rw [List.map_append, List.map_cons, List.nodup_append] at hdistinct
    have hnot := (List.nodup_cons.mp hdistinct.2.1).1
    exact hnot (List.mem_map.mpr ⟨w, hw, heq⟩)

/-- Writes to different keys may come in any order. -/
theorem replay_eq_of_perm
    {writes writes' : List (κ × ν)} (hperm : writes'.Perm writes)
    (hdistinct : (writes.map Prod.fst).Nodup) : replay writes' = replay writes := by
  have hdistinct' : (writes'.map Prod.fst).Nodup := (hperm.map Prod.fst).nodup_iff.mpr hdistinct
  funext k
  apply Option.ext
  intro v
  rw [replay_eq_some_iff_mem hdistinct', replay_eq_some_iff_mem hdistinct, hperm.mem_iff]

end

namespace Forest

/-! ## Forests with the same nodes and entries -/

theorem hasNode_nil_iff (f : Forest) (segment : String) :
    f.HasNode segment [] ↔ segment ∈ f.keys := by
  rw [← isSome_find?_iff, HasNode]
  cases f.find? segment <;> simp [Index.get?]

/-- Sorted forests with the same keys begin with the same one. -/
theorem Sorted.key_eq
    {k s k' s' : String} {l l' : Option Leaf} {below below' after after' : Forest}
    (hf : (tree k s l below after).Sorted) (hg : (tree k' s' l' below' after').Sorted)
    (hkeys : ∀ key, key ∈ (tree k s l below after).keys ↔
      key ∈ (tree k' s' l' below' after').keys) : k = k' := by
  have hk : k ∈ (tree k' s' l' below' after').keys := (hkeys k).mp List.mem_cons_self
  have hk' : k' ∈ (tree k s l below after).keys := (hkeys k').mpr List.mem_cons_self
  rcases List.mem_cons.mp hk with rfl | hk
  · rfl
  · rcases List.mem_cons.mp hk' with rfl | hk'
    · rfl
    · exact absurd (hg.1 k hk) (lt_asymm (hf.1 k' hk'))

/-- The nodes behind the first tree of a sorted forest are those with other keys. -/
theorem Sorted.hasNode_after_iff
    {k s : String} {l : Option Leaf} {below after : Forest} (h : (tree k s l below after).Sorted)
    (segment : String) (rest : List String) :
    after.HasNode segment rest ↔
      segment ≠ k ∧ (tree k s l below after).HasNode segment rest := by
  by_cases hk : segment = k
  · subst hk
    exact iff_of_false (fun hnode => h.not_mem_after hnode.mem_keys) (fun hnode => hnode.1 rfl)
  · rw [hasNode_tree_of_ne hk]
    exact (and_iff_right hk).symm

theorem eq_nil_of_not_hasNode
    {f : Forest} (h : ∀ segment rest, ¬ f.HasNode segment rest) : f = nil := by
  cases f with
  | nil => rfl
  | tree k s l below after =>
      have hnode : (tree k s l below after).HasNode k [] := by
        rw [hasNode_tree_self]
        trivial
      exact absurd hnode (h k [])

/-- A sorted forest whose nodes carry their keys is determined by its nodes and its entries. -/
theorem Sorted.eq_of_nodes
    {f g : Forest} (hf : f.Sorted) (hg : g.Sorted) (hkeyed : f.Keyed) (hkeyed' : g.Keyed)
    (hnodes : ∀ segment rest, f.HasNode segment rest ↔ g.HasNode segment rest)
    (hleaves : ∀ segment rest, f.leafAt? segment rest = g.leafAt? segment rest) : f = g := by
  induction f generalizing g with
  | nil =>
      refine (eq_nil_of_not_hasNode fun segment rest => ?_).symm
      rw [← hnodes]
      exact not_hasNode_nil segment rest
  | tree k s l below after ihbelow ihafter =>
      cases g with
      | nil =>
          refine eq_nil_of_not_hasNode fun segment rest => ?_
          rw [hnodes]
          exact not_hasNode_nil segment rest
      | tree k' s' l' below' after' =>
          have heq : k = k' := by
            apply hf.key_eq hg
            intro key
            rw [← hasNode_nil_iff, ← hasNode_nil_iff]
            exact hnodes key []
          subst heq
          have hsegment : s = s' := hkeyed.1.trans hkeyed'.1.symm
          have hleaf : l = l' := by
            have h := hleaves k []
            rwa [leafAt?_tree_self, leafAt?_tree_self] at h
          have hbelow : below = below' := by
            apply ihbelow hf.2.1 hg.2.1 hkeyed.2.1 hkeyed'.2.1
            · intro segment rest
              have h := hnodes k (segment :: rest)
              rwa [hasNode_tree_self, hasNode_tree_self] at h
            · intro segment rest
              have h := hleaves k (segment :: rest)
              rwa [leafAt?_tree_self, leafAt?_tree_self] at h
          have hafter : after = after' := by
            apply ihafter hf.2.2 hg.2.2 hkeyed.2.2 hkeyed'.2.2
            · intro segment rest
              rw [hf.hasNode_after_iff, hg.hasNode_after_iff, hnodes]
            · intro segment rest
              rw [hf.leafAt?_after, hg.leafAt?_after, hleaves]
          rw [hsegment, hleaf, hbelow, hafter]

end Forest

namespace Index

/-! ## The tree of a map -/

theorem segment_inserted (calls : List (List String × Leaf)) : (inserted calls).segment = "" := by
  induction calls using List.reverseRecOn with
  | nil =>
      rfl
  | append_singleton calls call ih =>
      rw [inserted_append_singleton]
      cases hpath : call.1 with
      | nil => exact ih
      | cons segment rest => exact ih

theorem isSome_get?_inserted_iff (calls : List (List String × Leaf)) (segments : List String) :
    ((inserted calls).get? segments).isSome = true ↔
      segments = [] ∨ ∃ path, segments <+: path ∧ (replay calls path).isSome = true := by
  simp only [isSome_get?_inserted, isSome_replay_iff]
  apply or_congr_right
  constructor
  · rintro ⟨call, hcall, hfront⟩
    exact ⟨call.1, hfront, call, hcall, rfl⟩
  · rintro ⟨path, hfront, call, hcall, rfl⟩
    exact ⟨call, hcall, hfront⟩

/-- Insertions that leave the same map leave the same tree. -/
theorem inserted_eq_of_replay
    {calls calls' : List (List String × Leaf)} (h : replay calls = replay calls') :
    inserted calls = inserted calls' := by
  have hleaf : ∀ segments,
      (inserted calls).leafAt? segments = (inserted calls').leafAt? segments := by
    intro segments
    rw [leafAt?_inserted, leafAt?_inserted, h]
  have hpresent : ∀ segments, ((inserted calls).get? segments).isSome = true ↔
      ((inserted calls').get? segments).isSome = true := by
    intro segments
    rw [isSome_get?_inserted_iff, isSome_get?_inserted_iff, h]
  have hroot : (inserted calls).leaf = (inserted calls').leaf := hleaf []
  have hbelow : (inserted calls).below = (inserted calls').below := by
    apply (sorted_inserted calls).eq_of_nodes (sorted_inserted calls') (keyed_inserted calls)
      (keyed_inserted calls')
    · intro segment rest
      exact hpresent (segment :: rest)
    · intro segment rest
      rw [← leafAt?_cons, ← leafAt?_cons]
      exact hleaf (segment :: rest)
  have hsegment : (inserted calls).segment = (inserted calls').segment := by
    rw [segment_inserted, segment_inserted]
  cases hi : inserted calls
  cases hj : inserted calls'
  simp_all

/-! ## Building the index -/

/-- The placements that are not left out. -/
def indexed (placed : List (List String × Leaf)) : List (List String × Leaf) :=
  placed.filter fun p => p.1 ≠ []

theorem foldl_place_eq_inserted (placed : List (List String × Leaf)) :
    placed.foldl (fun (i : Index) p => i.place p.1 p.2) .empty = inserted (indexed placed) := by
  induction placed using List.reverseRecOn with
  | nil =>
      rfl
  | append_singleton placed p ih =>
      obtain ⟨path, leaf⟩ := p
      have hsplit : indexed (placed ++ [(path, leaf)]) =
          indexed placed ++ [(path, leaf)].filter fun p => p.1 ≠ [] := List.filter_append ..
      rw [List.foldl_append, ih, hsplit]
      cases path with
      | nil => simp [place]
      | cons segment rest =>
          have hkept : [(segment :: rest, leaf)].filter (fun p => p.1 ≠ []) =
              [(segment :: rest, leaf)] := by simp
          rw [hkept, inserted_append_singleton]
          rfl

theorem build_eq_inserted (root : Path) (modules : List Module) (documents : List Document) :
    build root modules documents = inserted (indexed (placements root modules documents)) :=
  foldl_place_eq_inserted _

theorem replay_indexed (placed : List (List String × Leaf)) (segments : List String) :
    replay (indexed placed) segments = if segments = [] then none else replay placed segments := by
  have hlast : ∀ placed : List (List String × Leaf), replay placed segments =
      ((placed.filter fun p => p.1 = segments).getLast?).map Prod.snd := by
    intro placed
    have h := replay_map_eq_getLast? Prod.fst Prod.snd placed segments
    simpa only [Prod.mk.eta, List.map_id'] using h
  rw [hlast, hlast, indexed, List.filter_filter]
  split_ifs with hnil
  · have hnone : placed.filter (fun p => decide (p.1 = segments) && decide (p.1 ≠ [])) = [] := by
      rw [List.filter_eq_nil_iff]
      intro p _
      simp [hnil]
    rw [hnone]
    rfl
  · congr 3
    funext p
    by_cases hp : p.1 = segments
    · simp [hp, hnil]
    · simp [hp]

/-- The last document with a place, or else the last module with it. -/
def lastPlaced? (root : Path) (modules : List Module) (documents : List Document)
    (segments : List String) : Option Leaf :=
  (((documents.filter fun d => documentSegments root d.path = segments).getLast?).map
      Leaf.document).or
    (((modules.filter fun m => m.package.segments = segments).getLast?).map Leaf.module)

theorem leafAt?_build
    (root : Path) (modules : List Module) (documents : List Document) (segments : List String) :
    (build root modules documents).leafAt? segments =
      if segments = [] then none else lastPlaced? root modules documents segments := by
  rw [build_eq_inserted, leafAt?_inserted, replay_indexed, placements, replay_append,
    replay_map_eq_getLast?, replay_map_eq_getLast?]
  rfl

/-- The entries of an index are those that its placements, replayed in order, leave. -/
theorem mem_leaves_build_iff
    {root : Path} {modules : List Module} {documents : List Document} {leaf : Leaf} :
    leaf ∈ (build root modules documents).leaves ↔
      ∃ segments, segments ≠ [] ∧
        replay (placements root modules documents) segments = some leaf := by
  rw [build_eq_inserted, leaves, walk, (sorted_inserted _).mem_leaves_iff]
  simp only [← leafAt?_cons, leafAt?_inserted, replay_indexed]
  constructor
  · rintro ⟨segment, rest, hat⟩
    exact ⟨segment :: rest, List.cons_ne_nil segment rest, by simpa using hat⟩
  · rintro ⟨segments, hne, hat⟩
    obtain ⟨segment, rest, rfl⟩ := List.exists_cons_of_ne_nil hne
    exact ⟨segment, rest, by simpa using hat⟩

theorem placements_filter
    (root : Path) (modules : List Module) (documents : List Document) :
    indexed (placements root modules documents) =
      placements root (modules.filter fun m => m.package.segments ≠ [])
        (documents.filter fun d => documentSegments root d.path ≠ []) := by
  unfold indexed placements
  rw [List.filter_append, List.filter_map, List.filter_map]
  simp only [Function.comp_def]

theorem indexed_indexed (placed : List (List String × Leaf)) :
    indexed (indexed placed) = indexed placed := by
  unfold indexed
  rw [List.filter_filter]
  simp

theorem perm_placements
    (root : Path) {modules modules' : List Module} {documents documents' : List Document}
    (hmodules : modules'.Perm modules) (hdocuments : documents'.Perm documents) :
    (placements root modules' documents').Perm (placements root modules documents) :=
  (hmodules.map _).append (hdocuments.map _)

theorem map_fst_placements (root : Path) (modules : List Module) (documents : List Document) :
    (placements root modules documents).map Prod.fst =
      modules.map (fun m => m.package.segments) ++
        documents.map (fun d => documentSegments root d.path) := by
  simp [placements, Function.comp_def]

/-- The index does not depend on the order of modules and documents whose places are all different,
and neither does its page.  In any case the entry at a path is the last document with that place, or
else the last module with it, and entries without a place might as well not be there. -/
theorem build_perm_invariant (root : Path) (modules : List Module) (documents : List Document) :
    ((modules.map (fun m => m.package.segments) ++
          documents.map (fun d => documentSegments root d.path)).Nodup →
        ∀ modules' documents', modules'.Perm modules → documents'.Perm documents →
          build root modules' documents' = build root modules documents ∧
            ∀ heading, Page.ofIndex heading (build root modules' documents') root =
              Page.ofIndex heading (build root modules documents) root) ∧
      (∀ segments, (build root modules documents).leafAt? segments =
        if segments = [] then none else lastPlaced? root modules documents segments) ∧
      build root modules documents =
        build root (modules.filter fun m => m.package.segments ≠ [])
          (documents.filter fun d => documentSegments root d.path ≠ []) := by
  refine ⟨?_, leafAt?_build root modules documents, ?_⟩
  · intro hdistinct modules' documents' hmodules hdocuments
    have hperm : (indexed (placements root modules' documents')).Perm
        (indexed (placements root modules documents)) :=
      (perm_placements root hmodules hdocuments).filter _
    have hkeys : ((indexed (placements root modules documents)).map Prod.fst).Nodup := by
      rw [← map_fst_placements] at hdistinct
      exact hdistinct.sublist (List.filter_sublist.map Prod.fst)
    have htree : build root modules' documents' = build root modules documents := by
      rw [build_eq_inserted, build_eq_inserted]
      exact inserted_eq_of_replay (replay_eq_of_perm hperm hkeys)
    refine ⟨htree, ?_⟩
    intro heading
    rw [htree]
  · rw [build_eq_inserted, build_eq_inserted, ← placements_filter, indexed_indexed]

/-- One place is the front of two others, and the entries below it come first. -/
theorem build_perm_invariant_front_last :
    let named (name : String) : Module :=
      { path := ⟨name ++ ".pm"⟩
        package := { statement := "package " ++ name, description := "", line := 1 }
        items := []
        flavor := .core }
    let modules := [named "Foo::Bar", named "Foo"]
    let guide : Document := ⟨⟨"p/Foo/guide.md"⟩, "Read this.\n"⟩
    build ⟨"p"⟩ modules.reverse [guide] = build ⟨"p"⟩ modules [guide] ∧
      (build ⟨"p"⟩ modules [guide]).leafAt? ["Foo"] = some (.module (named "Foo")) ∧
      (build ⟨"p"⟩ modules [guide]).leafAt? ["Foo", "guide"] = some (.document guide) := by
  intro named modules guide
  obtain ⟨hperm, hleaf, -⟩ := build_perm_invariant ⟨"p"⟩ modules [guide]
  have hdistinct : (modules.map (fun m => m.package.segments) ++
      [guide].map (fun d => documentSegments ⟨"p"⟩ d.path)).Nodup := by decide +kernel
  refine ⟨(hperm hdistinct modules.reverse [guide] modules.reverse_perm (.refl _)).1, ?_, ?_⟩
  · rw [hleaf]
    decide +kernel
  · rw [hleaf]
    decide +kernel

end Index

end MarkerDoc
