import MarkerDoc.Proofs.ByteOrder
import MarkerDoc.Proofs.FenceGrammar
import MarkerDoc.Proofs.Index
import MarkerDoc.Script

/-!
# What a test script holds

The script of a module is described here by what the items of the module say, without the sorted
list that it is made with: which items have tests, which of them is the last of its name, and which
stand behind another one of the same name.  Putting tests into the sorted list one by one keeps the
last test of each name and the names in order, so the script is the one that the items describe, and
no other script is.
-/

namespace MarkerDoc

open Item (routineName)

/-! ## Items with tests -/

namespace Item

/-- The item is a routine with a test that is not all blank. -/
def HasTest (i : Item) (test : String) : Prop :=
  i.kind = .routine (some test) ∧ ∃ c ∈ test.toList, Text.isBlank c = false

def IsTested (i : Item) : Prop :=
  ∃ test, i.HasTest test

theorem testBody?_eq_some_iff {i : Item} {test : String} :
    i.testBody? = some test ↔ i.HasTest test := by
  have hblank : ∀ body, Text.isBlankText body = false ↔
      ∃ c ∈ body.toList, Text.isBlank c = false := by
    simp [Text.isBlankText]
  unfold testBody? HasTest
  split
  · next body hkind =>
      rw [hkind, Option.ite_none_left_eq_some, Bool.not_eq_true, hblank]
      simp only [Option.some.injEq, Kind.routine.injEq]
      constructor
      · rintro ⟨hc, rfl⟩
        exact ⟨rfl, hc⟩
      · rintro ⟨rfl, hc⟩
        exact ⟨hc, rfl⟩
  · next hkind =>
      simp only [reduceCtorEq, false_iff]
      exact fun htest => hkind test htest.1

theorem namedTest?_eq_some_iff {i : Item} {t : String × String} :
    i.namedTest? = some t ↔ i.HasTest t.2 ∧ routineName i.statement = t.1 := by
  rw [namedTest?, Option.map_eq_some_iff]
  simp only [testBody?_eq_some_iff]
  constructor
  · rintro ⟨test, htest, rfl⟩
    exact ⟨htest, rfl⟩
  · rintro ⟨htest, hname⟩
    exact ⟨t.2, htest, Prod.ext hname rfl⟩

theorem isSome_namedTest?_iff {i : Item} : i.namedTest?.isSome = true ↔ i.IsTested := by
  rw [namedTest?, Option.isSome_map, Option.isSome_iff_exists]
  simp only [testBody?_eq_some_iff]
  rfl

instance : DecidablePred IsTested :=
  fun _ => decidable_of_iff _ isSome_namedTest?_iff

end Item

namespace Script

/-! ## Tests kept in order -/

section

variable {kept : List (String × String)}

/-- One name may stand in the list once, and smaller names stand before larger ones. -/
def Ordered (kept : List (String × String)) : Prop :=
  (kept.map Prod.fst).Pairwise (· < ·)

theorem insertTest_snd_cons (name body n b : String) (rest : List (String × String)) :
    (insertTest name body ((n, b) :: rest)).2 =
      if name = n then (name, body) :: rest
      else if name < n then (name, body) :: (n, b) :: rest
      else (n, b) :: (insertTest name body rest).2 := by
  rw [insertTest]
  split_ifs <;> rfl

theorem mem_insertTest_iff (h : Ordered kept) (name body : String) (t : String × String) :
    t ∈ (insertTest name body kept).2 ↔ t = (name, body) ∨ t.1 ≠ name ∧ t ∈ kept := by
  induction kept with
  | nil =>
      simp [insertTest]
  | cons first rest ih =>
      obtain ⟨n, b⟩ := first
      obtain ⟨hlt, hrest⟩ := List.pairwise_cons.mp h
      have hlater : ∀ u ∈ rest, n < u.1 := fun u hu => hlt u.1 (List.mem_map_of_mem hu)
      rw [insertTest_snd_cons]
      split_ifs with heq hless
      · -- The new test takes the place of the old one, and no later name is the same.
        subst heq
        have hother : t ∈ rest → t.1 ≠ name := fun ht => (hlater t ht).ne'
        rw [List.mem_cons, List.mem_cons]
        constructor
        · rintro (ht | ht)
          · exact .inl ht
          · exact .inr ⟨hother ht, .inr ht⟩
        · rintro (ht | ⟨hne, rfl | ht⟩)
          · exact .inl ht
          · exact absurd rfl hne
          · exact .inr ht
      · have hother : t ∈ (n, b) :: rest → t.1 ≠ name := by
          intro ht
          rcases List.mem_cons.mp ht with rfl | ht
          · exact hless.ne'
          · exact (hless.trans (hlater t ht)).ne'
        rw [List.mem_cons]
        exact or_congr_right ⟨fun ht => ⟨hother ht, ht⟩, And.right⟩
      · rw [List.mem_cons, List.mem_cons, ih hrest]
        constructor
        · rintro (rfl | rfl | ⟨hne, ht⟩)
          · exact .inr ⟨Ne.symm heq, .inl rfl⟩
          · exact .inl rfl
          · exact .inr ⟨hne, .inr ht⟩
        · rintro (rfl | ⟨hne, rfl | ht⟩)
          · exact .inr (.inl rfl)
          · exact .inl rfl
          · exact .inr (.inr ⟨hne, ht⟩)

theorem mem_names_insertTest_iff (h : Ordered kept) (name body other : String) :
    other ∈ (insertTest name body kept).2.map Prod.fst ↔
      other = name ∨ other ∈ kept.map Prod.fst := by
  simp only [List.mem_map, mem_insertTest_iff h]
  constructor
  · rintro ⟨t, rfl | ⟨-, ht⟩, rfl⟩
    · exact .inl rfl
    · exact .inr ⟨t, ht, rfl⟩
  · rintro (rfl | ⟨t, ht, rfl⟩)
    · exact ⟨(other, body), .inl rfl, rfl⟩
    · by_cases hname : t.1 = name
      · exact ⟨(name, body), .inl rfl, hname.symm⟩
      · exact ⟨t, .inr ⟨hname, ht⟩, rfl⟩

theorem Ordered.insertTest (h : Ordered kept) (name body : String) :
    Ordered (insertTest name body kept).2 := by
  induction kept with
  | nil =>
      exact List.pairwise_singleton ..
  | cons first rest ih =>
      obtain ⟨n, b⟩ := first
      obtain ⟨hlt, hrest⟩ := List.pairwise_cons.mp h
      rw [insertTest_snd_cons]
      split_ifs with heq hless
      · subst heq
        exact h
      · refine List.pairwise_cons.mpr ⟨fun other hother => ?_, h⟩
        rcases List.mem_cons.mp hother with rfl | hother
        · exact hless
        · exact hless.trans (hlt other hother)
      · refine List.pairwise_cons.mpr ⟨fun other hother => ?_, ih hrest⟩
        rcases (mem_names_insertTest_iff hrest name body other).mp hother with rfl | hother
        · exact lt_of_le_of_ne (not_lt.mp hless) (Ne.symm heq)
        · exact hlt other hother

theorem length_insertTest (h : Ordered kept) (name body : String) :
    (insertTest name body kept).2.length =
      if name ∈ kept.map Prod.fst then kept.length else kept.length + 1 := by
  induction kept with
  | nil =>
      rfl
  | cons first rest ih =>
      obtain ⟨n, b⟩ := first
      obtain ⟨hlt, hrest⟩ := List.pairwise_cons.mp h
      have hmem : name ∈ ((n, b) :: rest).map Prod.fst ↔ name = n ∨ name ∈ rest.map Prod.fst :=
        List.mem_cons
      by_cases heq : name = n
      · rw [insertTest_snd_cons, if_pos heq, if_pos (hmem.mpr (.inl heq))]
        rfl
      · by_cases hless : name < n
        · -- A name before the first one is not in the list.
          have hnew : ¬ (name = n ∨ name ∈ rest.map Prod.fst) :=
            not_or.mpr ⟨heq, fun hlater => lt_asymm hless (hlt name hlater)⟩
          rw [insertTest_snd_cons, if_neg heq, if_pos hless, if_neg (mt hmem.mp hnew)]
          rfl
        · rw [insertTest_snd_cons, if_neg heq, if_neg hless, List.length_cons, ih hrest,
            if_congr (hmem.trans (or_iff_right heq)) rfl rfl]
          split_ifs <;> rfl

/-- A test takes the place of another if its name is in the list. -/
theorem isSome_insertTest_iff (h : Ordered kept) (name body : String) :
    (insertTest name body kept).1.isSome = true ↔ name ∈ kept.map Prod.fst := by
  induction kept with
  | nil =>
      simp [insertTest]
  | cons first rest ih =>
      obtain ⟨n, b⟩ := first
      obtain ⟨hlt, hrest⟩ := List.pairwise_cons.mp h
      have hmem : name ∈ ((n, b) :: rest).map Prod.fst ↔ name = n ∨ name ∈ rest.map Prod.fst :=
        List.mem_cons
      rw [insertTest, hmem]
      split_ifs with heq hless
      · exact iff_of_true rfl (.inl heq)
      · have hnew : name ∉ rest.map Prod.fst := fun hlater => lt_asymm hless (hlt name hlater)
        simp [heq, hnew]
      · rw [or_iff_right heq]
        exact ih hrest

end

/-- The tests by name, the last one of each name. -/
def bodies (tests : List (String × String)) : List (String × String) :=
  tests.foldl (fun kept t => (insertTest t.1 t.2 kept).2) []

/-- The names of the tests that take the place of an earlier one, given the names seen so far. -/
def repeatedFrom (seen : List String) : List (String × String) → List String
  | [] => []
  | (name, _) :: rest =>
    if seen.contains name then name :: repeatedFrom seen rest
    else repeatedFrom (name :: seen) rest

/-- Gathering notes exactly the names that were seen before. -/
theorem foldl_add
    {kept : List (String × String)} (h : Ordered kept) {seen : List String}
    (hseen : ∀ name, name ∈ seen ↔ name ∈ kept.map Prod.fst) (log : List String)
    (tests : List (String × String)) :
    tests.foldl Gathered.add ⟨kept, log⟩ =
      ⟨tests.foldl (fun kept t => (insertTest t.1 t.2 kept).2) kept,
        log ++ repeatedFrom seen tests⟩ := by
  induction tests generalizing kept seen log with
  | nil =>
      simp [repeatedFrom]
  | cons t tests ih =>
      obtain ⟨name, body⟩ := t
      have hkept := h.insertTest name body
      have hadd : Gathered.add ⟨kept, log⟩ (name, body) =
          ⟨(insertTest name body kept).2, if name ∈ seen then log ++ [name] else log⟩ := by
        simp only [hseen, ← isSome_insertTest_iff h name body]
        rfl
      rw [List.foldl_cons, List.foldl_cons, hadd, repeatedFrom]
      by_cases hmem : name ∈ seen
      · have hsame : ∀ other, other ∈ seen ↔
            other ∈ (insertTest name body kept).2.map Prod.fst := by
          intro other
          rw [mem_names_insertTest_iff h, ← hseen]
          exact ⟨.inr, fun hother => hother.elim (fun heq => heq ▸ hmem) id⟩
        rw [if_pos hmem, if_pos (by simpa using hmem), ih hkept hsame, List.append_assoc]
        rfl
      · have hmore : ∀ other, other ∈ name :: seen ↔
            other ∈ (insertTest name body kept).2.map Prod.fst := by
          intro other
          rw [mem_names_insertTest_iff h, ← hseen, List.mem_cons]
        rw [if_neg hmem, if_neg (by simpa using hmem), ih hkept hmore]

theorem foldl_add_eq (tests : List (String × String)) :
    tests.foldl Gathered.add {} = ⟨bodies tests, repeatedFrom [] tests⟩ :=
  @foldl_add [] .nil [] (by simp) [] tests

theorem bodies_append_singleton (tests : List (String × String)) (t : String × String) :
    bodies (tests ++ [t]) = (insertTest t.1 t.2 (bodies tests)).2 := by
  simp [bodies]

theorem ordered_bodies (tests : List (String × String)) : Ordered (bodies tests) := by
  induction tests using List.reverseRecOn with
  | nil =>
      exact .nil
  | append_singleton tests t ih =>
      rw [bodies_append_singleton]
      exact ih.insertTest t.1 t.2

/-- The last test of each name is kept. -/
theorem mem_bodies_iff (tests : List (String × String)) (t : String × String) :
    t ∈ bodies tests ↔ replay tests t.1 = some t.2 := by
  induction tests using List.reverseRecOn with
  | nil =>
      simp [bodies, replay]
  | append_singleton tests last ih =>
      rw [bodies_append_singleton, mem_insertTest_iff (ordered_bodies tests), ih,
        replay_append_singleton, Function.update_apply]
      by_cases hname : t.1 = last.1
      · rw [if_pos hname, Option.some.injEq]
        simp [hname, Prod.ext_iff, eq_comm]
      · have hne : t ≠ (last.1, last.2) := fun heq => hname (congrArg Prod.fst heq)
        simp [hname, hne]

/-- A test is kept under its name or takes the place of an earlier one. -/
theorem length_add {g : Gathered} (h : Ordered g.bodies) (t : String × String) :
    (g.add t).overwritten.length + (g.add t).bodies.length =
      g.overwritten.length + g.bodies.length + 1 := by
  have hbodies : (g.add t).bodies.length = _ := length_insertTest h t.1 t.2
  have hlog : (g.add t).overwritten =
      if (insertTest t.1 t.2 g.bodies).1.isSome then g.overwritten ++ [t.1]
      else g.overwritten := rfl
  rw [hbodies, hlog, if_congr (isSome_insertTest_iff h t.1 t.2) rfl rfl]
  split_ifs
  · rw [List.length_append, List.length_singleton]
    omega
  · omega

theorem length_foldl_add {g : Gathered} (h : Ordered g.bodies) (tests : List (String × String)) :
    (tests.foldl Gathered.add g).overwritten.length + (tests.foldl Gathered.add g).bodies.length =
      tests.length + (g.overwritten.length + g.bodies.length) := by
  induction tests generalizing g with
  | nil =>
      simp
  | cons t tests ih =>
      have hadd : Ordered (g.add t).bodies := h.insertTest t.1 t.2
      rw [List.foldl_cons, ih hadd, length_add h, List.length_cons]
      omega

/-! ## Blocks of sub-tests -/

/-- The name of a routine needs no escapes inside quotes. -/
theorem quoted_routineName (statement : String) :
    quoted (routineName statement) = routineName statement := by
  have hnot : ∀ c, Item.isNameChar c = false → c ∉ (routineName statement).toList := by
    intro c hc hmem
    rw [routineName, String.toList_ofList] at hmem
    exact Bool.false_ne_true (hc.symm.trans (List.mem_takeWhile_imp hmem))
  have hslash := hnot '\\' (by decide +kernel)
  have hquote := hnot '\'' (by decide +kernel)
  have hreplace : ∀ {old : String} {c : Char} (new : String), old.toList = [c] →
      c ∉ (routineName statement).toList →
        Text.replace old new (routineName statement) = routineName statement := by
    intro old c new hold hmem
    rw [Text.replace, hold, ← List.append_nil (routineName statement).toList,
      Text.replaceFrom_append_of_not_mem hmem, Text.replaceFrom, List.append_nil,
      String.ofList_toList]
  rw [quoted, hreplace "\\\\" rfl hslash, hreplace "\\'" rfl hquote]

/-- A sub-test as it stands in a script. -/
def block (name body : String) : String :=
  "\nsubtest '" ++ name ++ "' => sub \x7b\n" ++ body ++ "\n\x7d;\n"

/-! ## The script of a module -/

/-- The test is that of the last tested routine of the name. -/
def IsLastTest (items : List Item) (name test : String) : Prop :=
  ∃ front i back, items = front ++ i :: back ∧ i.HasTest test ∧ routineName i.statement = name ∧
    ∀ j ∈ back, j.IsTested → routineName j.statement ≠ name

/-- The item at the position is a tested routine, and so is an earlier item of its name. -/
def Repeats (items : List Item) (i : Item) (position : Nat) : Prop :=
  i.IsTested ∧ ∃ j ∈ items.take position, j.IsTested ∧
    routineName j.statement = routineName i.statement

instance (items : List Item) (i : Item) (position : Nat) : Decidable (Repeats items i position) :=
  inferInstanceAs (Decidable (_ ∧ _))

/-- The script that the items of a module describe. -/
structure Describes (m : Module) (s : Script) : Prop where
  package : s.package = m.name
  increasing : s.subtests.Pairwise fun a b => Text.bytes a < Text.bytes b
  names : ∀ name, name ∈ s.subtests ↔
    ∃ i ∈ m.items, i.IsTested ∧ routineName i.statement = name
  /-- Each sub-test holds the last test of its name, less the line breaks at the end. -/
  source : ∃ blocks : List String,
    s.source = "use strict;\nuse warnings;\nuse Test::More;\nuse " ++ m.name ++ ";\n" ++
        String.join blocks ++ "\ndone_testing();\n" ∧
      List.Forall₂
        (fun name text => ∃ test body, IsLastTest m.items name test ∧
          Text.TrimmedEnd (· == '\n') test.toList body.toList ∧ text = block name body)
        s.subtests blocks
  overwritten : s.overwritten =
    (m.items.zipIdx.filter fun e => Repeats m.items e.1 e.2).map fun e => routineName e.1.statement
  count : s.overwritten.length + s.subtests.length = (m.items.filter fun i => i.IsTested).length

section

variable {items : List Item} {m : Module} {s : Script}

theorem isLastTest_iff {name test : String} :
    IsLastTest items name test ↔
      replay (items.filterMap Item.namedTest?) name = some test := by
  rw [replay_eq_some_iff]
  constructor
  · rintro ⟨front, i, back, rfl, htest, hname, hback⟩
    have hnamed : i.namedTest? = some (name, test) :=
      Item.namedTest?_eq_some_iff.mpr ⟨htest, hname⟩
    refine ⟨front.filterMap Item.namedTest?, back.filterMap Item.namedTest?, ?_, ?_⟩
    · rw [List.filterMap_append, List.filterMap_cons_some hnamed]
    · intro t ht
      obtain ⟨j, hj, hjt⟩ := List.mem_filterMap.mp ht
      obtain ⟨hjtest, hjname⟩ := Item.namedTest?_eq_some_iff.mp hjt
      rw [← hjname]
      exact hback j hj ⟨t.2, hjtest⟩
  · rintro ⟨front, back, htests, hback⟩
    obtain ⟨before, others, rfl, -, hothers⟩ := List.filterMap_eq_append_iff.mp htests
    obtain ⟨untested, i, rest, rfl, -, hi, rfl⟩ := List.filterMap_eq_cons_iff.mp hothers
    obtain ⟨htest, hname⟩ := Item.namedTest?_eq_some_iff.mp hi
    refine ⟨before ++ untested, i, rest, by simp, htest, hname, ?_⟩
    rintro j hj ⟨test', hjtest⟩ hjname
    have hjt : j.namedTest? = some (name, test') :=
      Item.namedTest?_eq_some_iff.mpr ⟨hjtest, hjname⟩
    exact hback _ (List.mem_filterMap.mpr ⟨j, hj, hjt⟩) rfl

theorem mem_names_filterMap_iff {name : String} :
    name ∈ (items.filterMap Item.namedTest?).map Prod.fst ↔
      ∃ i ∈ items, i.IsTested ∧ routineName i.statement = name := by
  simp only [List.mem_map, List.mem_filterMap, Item.namedTest?_eq_some_iff]
  constructor
  · rintro ⟨t, ⟨i, hi, htest, hname⟩, rfl⟩
    exact ⟨i, hi, ⟨t.2, htest⟩, hname⟩
  · rintro ⟨i, hi, ⟨test, htest⟩, hname⟩
    exact ⟨(name, test), ⟨i, hi, htest, hname⟩, rfl⟩

theorem mem_names_bodies_iff {tests : List (String × String)} {name : String} :
    name ∈ (bodies tests).map Prod.fst ↔ name ∈ tests.map Prod.fst := by
  calc name ∈ (bodies tests).map Prod.fst
      ↔ ∃ body, (name, body) ∈ bodies tests := by simp
    _ ↔ (replay tests name).isSome = true := by
        simp only [mem_bodies_iff, Option.isSome_iff_exists]
    _ ↔ name ∈ tests.map Prod.fst := by rw [isSome_replay_iff, List.mem_map]

/-- Noting the names that come again is noting the routines that repeat an earlier one. -/
theorem repeatedFrom_filterMap
    {front rest : List Item} {seen : List String}
    (hseen : ∀ name, name ∈ seen ↔ name ∈ (front.filterMap Item.namedTest?).map Prod.fst) :
    repeatedFrom seen (rest.filterMap Item.namedTest?) =
      ((rest.zipIdx front.length).filter fun e => Repeats (front ++ rest) e.1 e.2).map
        fun e => routineName e.1.statement := by
  induction rest generalizing front seen with
  | nil =>
      rfl
  | cons i rest ih =>
      have hrest : front ++ i :: rest = (front ++ [i]) ++ rest := by simp
      have hlength : front.length + 1 = (front ++ [i]).length := by simp
      have hhere : Repeats (front ++ i :: rest) i front.length ↔
          i.IsTested ∧ routineName i.statement ∈ seen := by
        rw [Repeats, List.take_left, hseen, mem_names_filterMap_iff]
      rw [List.zipIdx_cons, List.filter_cons, hlength]
      cases hnamed : i.namedTest? with
      | none =>
          have huntested : ¬ i.IsTested := by simp [← Item.isSome_namedTest?_iff, hnamed]
          rw [List.filterMap_cons_none hnamed, if_neg (by simp [hhere, huntested]), hrest]
          refine ih fun name => ?_
          simp [hseen, hnamed]
      | some t =>
          have htested : i.IsTested := by simp [← Item.isSome_namedTest?_iff, hnamed]
          obtain ⟨-, hname⟩ := Item.namedTest?_eq_some_iff.mp hnamed
          have hmore : ∀ name, name ∈ ((front ++ [i]).filterMap Item.namedTest?).map Prod.fst ↔
              name ∈ seen ∨ name = t.1 := by
            intro name
            rw [hseen]
            simp [hnamed]
          obtain ⟨first, test⟩ := t
          rw [List.filterMap_cons_some hnamed, repeatedFrom]
          by_cases hmem : first ∈ seen
          · have hsame : ∀ name, name ∈ seen ↔
                name ∈ ((front ++ [i]).filterMap Item.namedTest?).map Prod.fst := by
              intro name
              rw [hmore]
              exact ⟨.inl, fun h => h.elim id fun heq => heq ▸ hmem⟩
            rw [if_pos (by simpa using hmem), if_pos (by simp [hhere, htested, hname, hmem]),
              List.map_cons, hname, hrest, ih hsame]
          · have hwith : ∀ name, name ∈ first :: seen ↔
                name ∈ ((front ++ [i]).filterMap Item.namedTest?).map Prod.fst := by
              intro name
              rw [hmore, List.mem_cons, or_comm]
            rw [if_neg (by simpa using hmem), if_neg (by simp [hhere, hname, hmem]), hrest,
              ih hwith]

theorem length_filterMap_namedTest? (items : List Item) :
    (items.filterMap Item.namedTest?).length = (items.filter fun i => i.IsTested).length := by
  rw [List.length_filterMap_eq_countP, List.countP_eq_length_filter]
  congr 2
  funext i
  rw [Bool.eq_iff_iff, Item.isSome_namedTest?_iff, decide_eq_true_iff]

theorem bodies_eq_nil_iff :
    bodies (items.filterMap Item.namedTest?) = [] ↔ ∀ i ∈ items, ¬ i.IsTested := by
  have hnames : ∀ name, name ∈ (bodies (items.filterMap Item.namedTest?)).map Prod.fst ↔
      ∃ i ∈ items, i.IsTested ∧ routineName i.statement = name :=
    fun name => mem_names_bodies_iff.trans mem_names_filterMap_iff
  rw [← @List.map_eq_nil_iff _ _ Prod.fst, List.eq_nil_iff_forall_not_mem]
  simp only [hnames]
  constructor
  · intro h i hi htested
    exact h _ ⟨i, hi, htested, rfl⟩
  · rintro h name ⟨i, hi, htested, -⟩
    exact h i hi htested

theorem package_ofModule? {m : Module} {script : Script} (h : ofModule? m = some script) :
    script.package = m.name := by
  unfold ofModule? at h
  simp only at h
  split_ifs at h
  obtain rfl := Option.some.inj h
  rfl

theorem ofModule?_eq_none_iff (m : Module) :
    ofModule? m = none ↔ ∀ i ∈ m.items, ¬ i.IsTested := by
  rw [← bodies_eq_nil_iff, ofModule?, foldl_add_eq]
  simp

/-- The blocks of the kept tests are those that the items describe. -/
theorem forall₂_subtest (items : List Item) :
    List.Forall₂
      (fun name text => ∃ test body, IsLastTest items name test ∧
        Text.TrimmedEnd (· == '\n') test.toList body.toList ∧ text = block name body)
      ((bodies (items.filterMap Item.namedTest?)).map Prod.fst)
      ((bodies (items.filterMap Item.namedTest?)).map fun t => subtest t.1 t.2) := by
  rw [List.forall₂_map_left_iff, List.forall₂_map_right_iff, List.forall₂_same]
  intro t ht
  have hlast : IsLastTest items t.1 t.2 := isLastTest_iff.mpr ((mem_bodies_iff _ t).mp ht)
  obtain ⟨-, i, -, -, -, hname, -⟩ := id hlast
  refine ⟨t.2, String.ofList (Text.dropEndWhile (· == '\n') t.2.toList), hlast, ?_, ?_⟩
  · rw [String.toList_ofList]
    exact Text.dropEndWhile_eq_iff.mp rfl
  · rw [subtest, ← hname, quoted_routineName]
    rfl

theorem describes_of_ofModule? (h : ofModule? m = some s) : Describes m s := by
  rw [ofModule?, foldl_add_eq, Option.ite_none_left_eq_some, Option.some.injEq] at h
  obtain ⟨-, rfl⟩ := h
  have hordered := ordered_bodies (m.items.filterMap Item.namedTest?)
  constructor
  · rfl
  · exact hordered.imp fun hlt => (Text.bytes_lt_bytes_iff _ _).mpr hlt
  · exact fun name => mem_names_bodies_iff.trans mem_names_filterMap_iff
  · exact ⟨_, rfl, forall₂_subtest m.items⟩
  · exact @repeatedFrom_filterMap [] m.items [] (by simp)
  · have hlength := @length_foldl_add {} .nil (m.items.filterMap Item.namedTest?)
    rw [foldl_add_eq] at hlength
    rw [← length_filterMap_namedTest?, List.length_map]
    exact hlength

theorem Describes.unique {s' : Script} (h : Describes m s) (h' : Describes m s') : s = s' := by
  have hsubtests : s.subtests = s'.subtests := by
    have hsorted : ∀ {s : Script}, Describes m s → s.subtests.Pairwise (· < ·) :=
      fun h => h.increasing.imp fun hlt => (Text.bytes_lt_bytes_iff _ _).mp hlt
    refine (hsorted h).eq_of_mem_iff (hsorted h') fun name => ?_
    rw [h.names, h'.names]
  have hsource : s.source = s'.source := by
    obtain ⟨blocks, hsource, hblocks⟩ := h.source
    obtain ⟨blocks', hsource', hblocks'⟩ := h'.source
    have hunique : Relator.RightUnique fun (name text : String) => ∃ test body,
        IsLastTest m.items name test ∧
          Text.TrimmedEnd (· == '\n') test.toList body.toList ∧ text = block name body := by
      rintro name _ _ ⟨test, body, hlast, htrimmed, rfl⟩ ⟨test', body', hlast', htrimmed', rfl⟩
      obtain rfl : test = test' :=
        Option.some.inj ((isLastTest_iff.mp hlast).symm.trans (isLastTest_iff.mp hlast'))
      have hbody : body.toList = body'.toList := by
        rw [← Text.dropEndWhile_eq_iff.mpr htrimmed, Text.dropEndWhile_eq_iff.mpr htrimmed']
      rw [String.toList_inj.mp hbody]
    rw [← hsubtests] at hblocks'
    rw [hsource, hsource', List.right_unique_forall₂' hunique hblocks hblocks']
  have hpackage : s.package = s'.package := h.package.trans h'.package.symm
  have hoverwritten : s.overwritten = s'.overwritten := h.overwritten.trans h'.overwritten.symm
  cases s
  cases s'
  simp_all only

end

/-- A module has a script exactly when it has a routine with a test that is not blank, and the
script is the one that its items describe. -/
theorem ofModule?_eq_iff_describes (m : Module) :
    (ofModule? m = none ↔ ∀ i ∈ m.items, ¬ i.IsTested) ∧
      ∀ s, ofModule? m = some s ↔ (∃ i ∈ m.items, i.IsTested) ∧ Describes m s := by
  have hsome : (ofModule? m).isSome = true ↔ ∃ i ∈ m.items, i.IsTested := by
    rw [Option.isSome_iff_ne_none, Ne, ofModule?_eq_none_iff]
    push Not
    rfl
  refine ⟨ofModule?_eq_none_iff m, fun s => ⟨?_, ?_⟩⟩
  · intro h
    exact ⟨hsome.mp (Option.isSome_of_eq_some h), describes_of_ofModule? h⟩
  · rintro ⟨htested, hdescribes⟩
    obtain ⟨script, hscript⟩ := Option.isSome_iff_exists.mp (hsome.mpr htested)
    rw [hscript, (describes_of_ofModule? hscript).unique hdescribes]

end Script

end MarkerDoc
