import MarkerDoc.Index
import Mathlib

/-!
# The index as a map

The index is a tree of sorted forests, but what it holds is a map from paths of segments to entries.
An insertion changes that map at one path and nowhere else, so building the index replays the
placements of all entries in order, and the last entry at a path is the one that stands there.

A path is looked up by keys, while what is shown of a node is its segment.  That the two agree is
not part of the type: it is an invariant, which every insertion keeps.
-/

namespace MarkerDoc

/-! ## Replaying writes -/

/-- The map that comes of writing some values at their keys, one after the other. -/
def replay {κ ν : Type} [DecidableEq κ] (writes : List (κ × ν)) : κ → Option ν :=
  writes.foldl (fun held w => Function.update held w.1 (some w.2)) fun _ => none

section

variable {α κ ν : Type} [DecidableEq κ] {key : α → κ} {value : α → ν}

theorem replay_append_singleton (writes : List (κ × ν)) (w : κ × ν) :
    replay (writes ++ [w]) = Function.update (replay writes) w.1 (some w.2) := by
  simp [replay]

theorem exists_last_of_mem (key : α → κ) {xs : List α} {x : α} (hx : x ∈ xs) :
    ∃ front y back, xs = front ++ y :: back ∧ key y = key x ∧ ∀ z ∈ back, key z ≠ key x := by
  induction xs using List.reverseRecOn with
  | nil =>
      simp at hx
  | append_singleton xs last ih =>
      by_cases hlast : key last = key x
      · exact ⟨xs, last, [], rfl, hlast, by simp⟩
      · have hmem : x ∈ xs := by
          rcases List.mem_append.mp hx with hx | hx
          · exact hx
          · exact absurd (congrArg key (List.mem_singleton.mp hx)).symm hlast
        obtain ⟨front, y, back, rfl, hy, hback⟩ := ih hmem
        refine ⟨front, y, back ++ [last], by simp, hy, ?_⟩
        simpa [or_imp, forall_and, hlast] using hback

theorem replay_of_last
    (value : α → ν) (front : List α) {back : List α} {x : α} (hback : ∀ y ∈ back, key y ≠ key x) :
    replay ((front ++ x :: back).map fun y => (key y, value y)) (key x) = some (value x) := by
  induction back using List.reverseRecOn with
  | nil =>
      rw [List.map_append, List.map_singleton, replay_append_singleton, Function.update_self]
  | append_singleton back last ih =>
      have hne : key x ≠ key last := fun h => hback last (by simp) h.symm
      rw [← List.cons_append, ← List.append_assoc, List.map_append, List.map_singleton,
        replay_append_singleton, Function.update_of_ne hne,
        ih fun y hy => hback y (by simp [hy])]

theorem exists_of_replay
    {xs : List α} {k : κ} {v : ν} (h : replay (xs.map fun y => (key y, value y)) k = some v) :
    ∃ x ∈ xs, key x = k := by
  induction xs using List.reverseRecOn with
  | nil =>
      simp [replay] at h
  | append_singleton xs last ih =>
      by_cases hlast : key last = k
      · exact ⟨last, by simp, hlast⟩
      · rw [List.map_append, List.map_singleton, replay_append_singleton,
          Function.update_of_ne (Ne.symm hlast)] at h
        obtain ⟨x, hx, hkey⟩ := ih h
        exact ⟨x, by simp [hx], hkey⟩

/-- What stands at a key is the value of the last member with that key. -/
theorem replay_map_eq_some_iff {xs : List α} {k : κ} {v : ν} :
    replay (xs.map fun y => (key y, value y)) k = some v ↔
      ∃ front x back, xs = front ++ x :: back ∧ key x = k ∧ value x = v ∧
        ∀ y ∈ back, key y ≠ k := by
  constructor
  · intro h
    obtain ⟨x, hx, rfl⟩ := exists_of_replay h
    obtain ⟨front, y, back, rfl, hy, hback⟩ := exists_last_of_mem key hx
    rw [← hy] at h hback ⊢
    have hlast := replay_of_last value front hback
    exact ⟨front, y, back, rfl, rfl, Option.some.inj (hlast.symm.trans h), hback⟩
  · rintro ⟨front, x, back, rfl, rfl, rfl, hback⟩
    exact replay_of_last value front hback

theorem replay_eq_some_iff {writes : List (κ × ν)} {k : κ} {v : ν} :
    replay writes k = some v ↔
      ∃ front back, writes = front ++ (k, v) :: back ∧ ∀ w ∈ back, w.1 ≠ k := by
  have hlast := @replay_map_eq_some_iff (κ × ν) κ ν _ Prod.fst Prod.snd writes k v
  simp only [Prod.mk.eta, List.map_id'] at hlast
  rw [hlast]
  constructor
  · rintro ⟨front, w, back, hwrites, rfl, rfl, hback⟩
    exact ⟨front, back, hwrites, hback⟩
  · rintro ⟨front, back, hwrites, hback⟩
    exact ⟨front, (k, v), back, hwrites, rfl, rfl, hback⟩

theorem replay_append (front back : List (κ × ν)) (k : κ) :
    replay (front ++ back) k = (replay back k).or (replay front k) := by
  induction back using List.reverseRecOn with
  | nil =>
      simp [replay]
  | append_singleton back w ih =>
      rw [← List.append_assoc, replay_append_singleton, replay_append_singleton,
        Function.update_apply, Function.update_apply, ih]
      split_ifs <;> rfl

theorem replay_map_eq_getLast? (key : α → κ) (value : α → ν) (xs : List α) (k : κ) :
    replay (xs.map fun x => (key x, value x)) k =
      ((xs.filter fun x => key x = k).getLast?).map value := by
  induction xs using List.reverseRecOn with
  | nil =>
      rfl
  | append_singleton xs last ih =>
      rw [List.map_append, List.map_singleton, replay_append_singleton, Function.update_apply,
        List.filter_append, ih]
      by_cases hlast : key last = k
      · simp [hlast]
      · simp [hlast, Ne.symm hlast]

theorem isSome_replay_iff (writes : List (κ × ν)) (k : κ) :
    (replay writes k).isSome = true ↔ ∃ w ∈ writes, w.1 = k := by
  have hlast := replay_map_eq_getLast? Prod.fst Prod.snd writes k
  simp only [Prod.mk.eta, List.map_id'] at hlast
  rw [hlast, Option.isSome_map, List.getLast?_isSome, Ne, List.filter_eq_nil_iff]
  simp

end

namespace Forest

/-! ## Sorted forests -/

/-- The trees of every forest stand in strictly increasing order of their keys. -/
def Sorted : Forest → Prop
  | .nil => True
  | .tree key _ _ below after =>
    (∀ k ∈ after.keys, key < k) ∧ below.Sorted ∧ after.Sorted

theorem sorted_nil : Forest.nil.Sorted :=
  trivial

theorem find?_tree_self (k s : String) (l : Option Leaf) (below after : Forest) :
    (tree k s l below after).find? k = some { segment := s, leaf := l, below } := by
  simp [find?]

theorem find?_tree_of_ne
    {key k : String} (h : key ≠ k) (s : String) (l : Option Leaf) (below after : Forest) :
    (tree k s l below after).find? key = after.find? key := by
  simp [find?, h]

theorem isSome_find?_iff (f : Forest) (key : String) :
    (f.find? key).isSome = true ↔ key ∈ f.keys := by
  induction f with
  | nil =>
      simp [find?, keys]
  | tree k s l below after _ ih =>
      by_cases hk : key = k
      · simp [find?, keys, hk]
      · simp [find?, keys, hk, ih]

theorem find?_eq_none {f : Forest} {key : String} (h : key ∉ f.keys) : f.find? key = none := by
  rw [← isSome_find?_iff, Option.not_isSome_iff_eq_none] at h
  exact h

/-- The entry at the path of a segment and the segments after it. -/
def leafAt? (f : Forest) (segment : String) (rest : List String) : Option Leaf :=
  (f.find? segment).bind fun child => child.leafAt? rest

@[simp] theorem leafAt?_nil (segment : String) (rest : List String) :
    Forest.nil.leafAt? segment rest = none :=
  rfl

theorem leafAt?_tree_self
    (k s : String) (l : Option Leaf) (below after : Forest) (rest : List String) :
    (Forest.tree k s l below after).leafAt? k rest =
      match rest with
      | [] => l
      | next :: rest' => below.leafAt? next rest' := by
  cases rest <;> simp [leafAt?, find?, Index.leafAt?, Index.get?, Option.bind_assoc]

theorem leafAt?_tree_of_ne
    {segment k : String} (h : segment ≠ k) (s : String) (l : Option Leaf) (below after : Forest)
    (rest : List String) :
    (Forest.tree k s l below after).leafAt? segment rest = after.leafAt? segment rest := by
  simp [leafAt?, find?, h]

theorem leafAt?_eq_none_of_not_mem
    {f : Forest} {segment : String} (h : segment ∉ f.keys) (rest : List String) :
    f.leafAt? segment rest = none := by
  rw [leafAt?, find?_eq_none h]
  rfl

theorem sorted_branch
    {segment : String} {after : Forest} (hafter : after.Sorted)
    (hlt : ∀ k ∈ after.keys, segment < k) (leaf : Leaf) (rest : List String) :
    (branch segment leaf after rest).Sorted := by
  induction rest generalizing segment after with
  | nil => exact ⟨hlt, trivial, hafter⟩
  | cons next rest ih => exact ⟨hlt, ih sorted_nil (by simp [keys]), hafter⟩

/-- A new branch is a node that holds nothing with the entry inserted into it. -/
theorem find?_branch
    (segment : String) (leaf : Leaf) (after : Forest) (rest : List String) (key : String) :
    (branch segment leaf after rest).find? key =
      if key = segment then some (({ segment } : Index).insert leaf rest) else after.find? key := by
  cases rest with
  | nil => rfl
  | cons next rest =>
      rw [branch, find?, Index.insert, Index.exchange, exchange.eq_def]

theorem keys_branch (segment : String) (leaf : Leaf) (after : Forest) (rest : List String) :
    (branch segment leaf after rest).keys = segment :: after.keys := by
  cases rest <;> rfl

theorem insert_nil (segment : String) (rest : List String) (leaf : Leaf) :
    Forest.nil.insert segment rest leaf = branch segment leaf .nil rest := by
  rw [insert, exchange.eq_def]

section

variable {segment k s : String} {rest : List String} {leaf : Leaf} {l : Option Leaf}
  {below after : Forest}

theorem insert_tree_self :
    (tree k s l below after).insert k rest leaf =
      match rest with
      | [] => .tree k s (some leaf) below after
      | next :: rest' => .tree k s l (below.insert next rest' leaf) after := by
  rw [insert, exchange.eq_def]
  cases rest <;> simp [insert]

theorem insert_tree_of_lt (hne : segment ≠ k) (hlt : segment < k) :
    (tree k s l below after).insert segment rest leaf =
      branch segment leaf (.tree k s l below after) rest := by
  rw [insert, exchange.eq_def]
  simp [hne, hlt]

theorem insert_tree_of_gt (hne : segment ≠ k) (hlt : ¬ segment < k) :
    (tree k s l below after).insert segment rest leaf =
      .tree k s l below (after.insert segment rest leaf) := by
  rw [insert, exchange.eq_def]
  simp [hne, hlt, insert]

end

theorem mem_keys_insert
    {f : Forest} {segment : String} {rest : List String} {leaf : Leaf} {key : String}
    (h : key ∈ (f.insert segment rest leaf).keys) : key = segment ∨ key ∈ f.keys := by
  induction f with
  | nil =>
      rw [insert_nil, keys_branch] at h
      simpa [keys] using h
  | tree k s l below after _ ih =>
      by_cases hk : segment = k
      · subst hk
        rw [insert_tree_self] at h
        cases rest <;> exact .inr h
      · by_cases hlt : segment < k
        · rw [insert_tree_of_lt hk hlt, keys_branch] at h
          exact List.mem_cons.mp h
        · rw [insert_tree_of_gt hk hlt] at h
          rcases List.mem_cons.mp h with rfl | h
          · exact .inr List.mem_cons_self
          · exact (ih h).imp_right (List.mem_cons_of_mem k)

theorem Sorted.insert
    {f : Forest} (h : f.Sorted) (segment : String) (rest : List String) (leaf : Leaf) :
    (f.insert segment rest leaf).Sorted := by
  induction f generalizing segment rest with
  | nil =>
      rw [insert_nil]
      exact sorted_branch sorted_nil (by simp [keys]) leaf rest
  | tree k s l below after ihbelow ihafter =>
      have hwhole := h
      obtain ⟨hlt, hbelow, hafter⟩ := h
      by_cases hk : segment = k
      · subst hk
        rw [insert_tree_self]
        cases rest with
        | nil => exact ⟨hlt, hbelow, hafter⟩
        | cons next rest => exact ⟨hlt, ihbelow hbelow next rest, hafter⟩
      · by_cases hless : segment < k
        · rw [insert_tree_of_lt hk hless]
          refine sorted_branch hwhole ?_ leaf rest
          intro key hkey
          rcases List.mem_cons.mp hkey with rfl | hkey
          · exact hless
          · exact hless.trans (hlt key hkey)
        · rw [insert_tree_of_gt hk hless]
          refine ⟨fun key hkey => ?_, hbelow, ihafter hafter segment rest⟩
          rcases mem_keys_insert hkey with rfl | hkey
          · exact lt_of_le_of_ne (not_lt.mp hless) (Ne.symm hk)
          · exact hlt key hkey

/-- A key before all the keys of a forest is not one of them. -/
theorem Sorted.not_mem_of_lt
    {k s : String} {l : Option Leaf} {below after : Forest} (h : (tree k s l below after).Sorted)
    {key : String} (hlt : key < k) : key ∉ (tree k s l below after).keys := by
  intro hmem
  rcases List.mem_cons.mp hmem with rfl | hmem
  · exact lt_irrefl _ hlt
  · exact lt_asymm hlt (h.1 key hmem)

/-- An insertion changes the tree with its first segment alone: it is taken, or made if there is
none, and the entry is inserted into it. -/
theorem Sorted.find?_insert
    {f : Forest} (h : f.Sorted) (segment : String) (rest : List String) (leaf : Leaf)
    (key : String) :
    (f.insert segment rest leaf).find? key =
      if key = segment then some (((f.find? segment).getD { segment }).insert leaf rest)
      else f.find? key := by
  induction f with
  | nil =>
      rw [insert_nil, find?_branch]
      rfl
  | tree k s l below after _ ih =>
      by_cases hk : segment = k
      · subst hk
        rw [insert_tree_self, find?_tree_self]
        by_cases hkey : key = segment
        · subst hkey
          cases rest <;> simp [find?_tree_self, Index.insert, Index.exchange, Forest.insert]
        · cases rest <;> simp [find?_tree_of_ne hkey, hkey]
      · by_cases hless : segment < k
        · -- The new branch hides no tree: a sorted forest has none with its key.
          rw [insert_tree_of_lt hk hless, find?_branch, find?_eq_none (h.not_mem_of_lt hless)]
          rfl
        · rw [insert_tree_of_gt hk hless, find?_tree_of_ne hk]
          by_cases hkey : key = k
          · have hne : key ≠ segment := fun heq => hk (heq.symm.trans hkey)
            subst hkey
            rw [find?_tree_self, find?_tree_self, if_neg hne]
          · rw [find?_tree_of_ne hkey, find?_tree_of_ne hkey, ih h.2.2]

theorem Sorted.not_mem_after
    {k s : String} {l : Option Leaf} {below after : Forest} (h : (tree k s l below after).Sorted) :
    k ∉ after.keys :=
  fun hmem => lt_irrefl k (h.1 k hmem)

/-- The entries behind the first tree of a sorted forest are those with other keys. -/
theorem Sorted.leafAt?_after
    {k s : String} {l : Option Leaf} {below after : Forest} (h : (tree k s l below after).Sorted)
    (segment : String) (rest : List String) :
    after.leafAt? segment rest =
      if segment = k then none else (tree k s l below after).leafAt? segment rest := by
  split_ifs with hk
  · subst hk
    exact leafAt?_eq_none_of_not_mem h.not_mem_after rest
  · exact (leafAt?_tree_of_ne hk ..).symm

/-! ## Entries in walk order -/

/-- The entries of a walk are the entries at the paths of the forest. -/
theorem Sorted.mem_leaves_iff
    {f : Forest} (h : f.Sorted) (depth : Nat) (leaf : Leaf) :
    leaf ∈ (f.walkFrom depth).filterMap (·.2.leaf) ↔
      ∃ segment rest, f.leafAt? segment rest = some leaf := by
  induction f generalizing depth with
  | nil =>
      simp [walkFrom]
  | tree k s l below after ihbelow ihafter =>
      have hsorted := h
      obtain ⟨-, hbelow, hafter⟩ := h
      have hsplit : ((tree k s l below after).walkFrom depth).filterMap (·.2.leaf) =
          l.toList ++ ((below.walkFrom (depth + 1)).filterMap (·.2.leaf) ++
            (after.walkFrom depth).filterMap (·.2.leaf)) := by
        rw [walkFrom, List.filterMap_cons, List.filterMap_append]
        cases l <;> rfl
      rw [hsplit, List.mem_append, List.mem_append, ihbelow hbelow, ihafter hafter,
        Option.mem_toList]
      constructor
      · rintro (hl | ⟨segment, rest, hat⟩ | ⟨segment, rest, hat⟩)
        · exact ⟨k, [], by rw [leafAt?_tree_self]; exact hl⟩
        · exact ⟨k, segment :: rest, by rw [leafAt?_tree_self]; exact hat⟩
        · rw [hsorted.leafAt?_after] at hat
          split_ifs at hat
          exact ⟨segment, rest, hat⟩
      · rintro ⟨segment, rest, hat⟩
        by_cases hk : segment = k
        · subst hk
          rw [leafAt?_tree_self] at hat
          cases rest with
          | nil => exact .inl hat
          | cons next rest => exact .inr (.inl ⟨next, rest, hat⟩)
        · rw [leafAt?_tree_of_ne hk] at hat
          exact .inr (.inr ⟨segment, rest, hat⟩)

/-! ## Keys and segments -/

/-- Every node carries the key that it is found under for its segment. -/
def Keyed : Forest → Prop
  | .nil => True
  | .tree key segment _ below after => segment = key ∧ below.Keyed ∧ after.Keyed

theorem keyed_nil : Forest.nil.Keyed :=
  trivial

theorem keyed_branch
    {after : Forest} (hafter : after.Keyed) (segment : String) (leaf : Leaf) (rest : List String) :
    (branch segment leaf after rest).Keyed := by
  induction rest generalizing segment after with
  | nil => exact ⟨rfl, keyed_nil, hafter⟩
  | cons next rest ih => exact ⟨rfl, ih keyed_nil next, hafter⟩

/-- The nodes that an insertion makes carry their keys, and the others keep what they carry. -/
theorem Keyed.insert
    {f : Forest} (h : f.Keyed) (segment : String) (rest : List String) (leaf : Leaf) :
    (f.insert segment rest leaf).Keyed := by
  induction f generalizing segment rest with
  | nil =>
      rw [insert_nil]
      exact keyed_branch keyed_nil segment leaf rest
  | tree k s l below after ihbelow ihafter =>
      have hwhole := h
      obtain ⟨hkey, hbelow, hafter⟩ := h
      by_cases hk : segment = k
      · subst hk
        rw [insert_tree_self]
        cases rest with
        | nil => exact ⟨hkey, hbelow, hafter⟩
        | cons next rest => exact ⟨hkey, ihbelow hbelow next rest, hafter⟩
      · by_cases hless : segment < k
        · rw [insert_tree_of_lt hk hless]
          exact keyed_branch hwhole segment leaf rest
        · rw [insert_tree_of_gt hk hless]
          exact ⟨hkey, hbelow, ihafter hafter segment rest⟩

end Forest

namespace Index

theorem leafAt?_cons (i : Index) (segment : String) (rest : List String) :
    i.leafAt? (segment :: rest) = i.below.leafAt? segment rest := by
  simp [leafAt?, get?, Forest.leafAt?, Option.bind_assoc]

end Index

end MarkerDoc
