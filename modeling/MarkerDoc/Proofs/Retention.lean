import MarkerDoc.Proofs.BlockLines
import MarkerDoc.Proofs.CommentText

/-!
# The lines that a record keeps

The block of a declaration is divided into a description and a test.  A routine is recorded with
both, so every written line of its block is found again, in its order, in one of them.  Packages,
attributes and modifiers are recorded with the description alone.  Of their blocks the lines inside
the first fenced region are lost, and no other lines.
-/

namespace MarkerDoc

def Item.test? (i : Item) : Option String :=
  match i.kind with
  | .routine test => test
  | .attribute | .modifier => none

namespace DocBlock

open Text

/-! ## Dealing lines out -/

/-- A list is dealt out to two others, which keep its order. -/
inductive Dealt {α : Type} : List α → List α → List α → Prop
  | nil : Dealt [] [] []
  | left {x : α} {xs us vs : List α} (h : Dealt xs us vs) : Dealt (x :: xs) (x :: us) vs
  | right {x : α} {xs us vs : List α} (h : Dealt xs us vs) : Dealt (x :: xs) us (x :: vs)

section

variable {α : Type} {xs us vs : List α}

theorem Dealt.append
    {xs' us' vs' : List α} (h : Dealt xs us vs) (h' : Dealt xs' us' vs') :
    Dealt (xs ++ xs') (us ++ us') (vs ++ vs') := by
  induction h with
  | nil => exact h'
  | left _ ih => exact .left ih
  | right _ ih => exact .right ih

theorem Dealt.all_left (xs : List α) : Dealt xs xs [] := by
  induction xs with
  | nil => exact .nil
  | cons x xs ih => exact .left ih

theorem Dealt.all_right (xs : List α) : Dealt xs [] xs := by
  induction xs with
  | nil => exact .nil
  | cons x xs ih => exact .right ih

theorem Dealt.sublist_left (h : Dealt xs us vs) : us.Sublist xs := by
  induction h with
  | nil => exact .slnil
  | left _ ih => exact ih.cons_cons _
  | right _ ih => exact ih.cons _

theorem Dealt.length_eq (h : Dealt xs us vs) : xs.length = us.length + vs.length := by
  induction h with
  | nil => rfl
  | left _ ih | right _ ih =>
      simp only [List.length_cons, ih]
      omega

end

/-! ## Records of a block -/

/-- Every written line is a line of the description or of the test, in the order of the block. -/
def Retained (texts : List String) (description : String) (test : Option String) : Prop :=
  ∃ us vs, Dealt (written texts) us vs ∧ us.Sublist (lines description) ∧
    vs.Sublist (test.elim [] lines)

section

variable {before body after : List String} {description : String} {test : Option String}

theorem retained_of_test
    (hdescription : written (lines description) = written (before ++ after))
    (htest : written (test.elim [] lines) = written body) :
    Retained (before ++ body ++ after) description test := by
  have hdealt : Dealt (written (before ++ body ++ after)) (written (before ++ after))
      (written body) := by
    have hsplit := ((Dealt.all_left (written before)).append (.all_right (written body))).append
      (.all_left (written after))
    simpa only [written_append, List.append_nil, List.nil_append] using hsplit
  refine ⟨_, _, hdealt, ?_, ?_⟩
  · rw [← hdescription]
    exact List.filter_sublist
  · rw [← htest]
    exact List.filter_sublist

/-- Without a test there is room for the lines outside the region only. -/
theorem retained_none_iff
    (hdescription : written (lines description) = written (before ++ after)) :
    Retained (before ++ body ++ after) description none ↔ written body = [] := by
  constructor
  · rintro ⟨us, vs, hdealt, hus, hvs⟩
    -- All the lines are dealt to the description, which has no others than those outside.
    obtain rfl : vs = [] := List.sublist_nil.mp hvs
    have hwritten : written us = us := by
      rw [written, List.filter_eq_self]
      intro l hl
      exact (List.mem_filter.mp (hdealt.sublist_left.subset hl)).2
    have hle : us.length ≤ (written (before ++ after)).length := by
      rw [← hdescription, ← hwritten]
      exact (hus.filter _).length_le
    have hlength := hdealt.length_eq
    simp only [written_append, List.length_append, List.length_nil] at hle hlength
    exact List.length_eq_zero_iff.mp (by omega)
  · intro hbody
    exact retained_of_test hdescription hbody.symm

end

/-- The texts of a block in front of its first fenced region, inside it and behind it. -/
def Divided (marker : Marker) (block : List CommentLine) (before body after : List String) : Prop :=
  ∃ texts, CarriesTexts marker block texts ∧ Regions texts before body after

/-- What a record keeps of its block: the lines outside the first fenced region, and the lines
inside it if it is recorded with a test. -/
def KeepsBlock (marker : Marker) (block : List CommentLine) (description : String)
    (test : Option String) (tested : Bool) : Prop :=
  ∃ before body after, Divided marker block before body after ∧
    written (lines description) = written (before ++ after) ∧
    (tested = true → written (test.elim [] lines) = written body) ∧
    (Retained (before ++ body ++ after) description test ↔ tested = true ∨ written body = [])

section

variable {marker : Marker} {block : List CommentLine} {description : String} {test : Option String}

theorem exists_divided
    (hblock : ∀ l ∈ block, IsMarkedLine marker l)
    (h : classify block marker = .ok (.documented description test)) :
    ∃ before body after, Divided marker block before body after ∧
      written (lines description) = written (before ++ after) ∧
      written (test.elim [] lines) = written body := by
  obtain ⟨before, body, after, hrecords⟩ := exists_records h
  have hnewline : ∀ t, t ∈ before ∨ t ∈ body ∨ t ∈ after → '\n' ∉ t.toList := by
    intro t ht
    exact newline_not_mem_stripped (fun l hl => (hblock l hl).newline) t (hrecords.regions.mem ht)
  refine ⟨before, body, after, ⟨_, carriesTexts_stripped hblock, hrecords.regions⟩, ?_, ?_⟩
  · rw [hrecords.written_description, flatMap_lines]
    intro t ht
    exact hnewline t ((List.mem_append.mp ht).imp_right .inr)
  · rw [hrecords.written_test, flatMap_lines]
    intro t ht
    exact hnewline t (.inr (.inl ht))

theorem keepsBlock_test
    (hblock : ∀ l ∈ block, IsMarkedLine marker l)
    (h : classify block marker = .ok (.documented description test)) :
    KeepsBlock marker block description test true := by
  obtain ⟨before, body, after, hdivided, hdescription, htest⟩ := exists_divided hblock h
  refine ⟨before, body, after, hdivided, hdescription, fun _ => htest, ?_⟩
  exact iff_of_true (retained_of_test hdescription htest) (.inl rfl)

theorem keepsBlock_none
    (hblock : ∀ l ∈ block, IsMarkedLine marker l)
    (h : classify block marker = .ok (.documented description test)) :
    KeepsBlock marker block description none false := by
  obtain ⟨before, body, after, hdivided, hdescription, -⟩ := exists_divided hblock h
  refine ⟨before, body, after, hdivided, hdescription, by simp, ?_⟩
  rw [retained_none_iff hdescription]
  simp

end

end DocBlock

namespace Extract

open DocBlock

/-! ## Records of a module -/

/-- The item stands for the declaration at a position, and keeps of its block what its kind has
room for. -/
def KeepsBlockAt (es : List Element) (i : Nat) (item : Item) : Prop :=
  (∃ e, es[i]? = some e ∧ item.statement = e.text ∧ item.line = e.line) ∧
    KeepsBlock .itemDoc (itemBlockAt es i) item.description item.test? item.isRoutine

theorem DocumentedAt.keepsBlockAt
    {extensions : List String} {source : String} {i : Nat} {item : Item}
    (h : DocumentedAt extensions (Element.scan source) i item) :
    KeepsBlockAt (Element.scan source) i item := by
  obtain ⟨e, kind, description, test, hat, hselected, hblock, rfl⟩ := h
  refine ⟨⟨e, hat, rfl, rfl⟩, ?_⟩
  have hmarked := isMarkedLine_itemBlockAt source i
  cases hselected with
  | routine => exact keepsBlock_test hmarked hblock
  | «attribute» => exact keepsBlock_none hmarked hblock
  | modifier => exact keepsBlock_none hmarked hblock

/-- What the records of a module keep of their blocks.  The written lines outside the first fenced
region of a block are the written lines of its description.  Those inside are the written lines of
the test of a routine.  Elsewhere they are lost: a package, an attribute or a modifier retains all
lines of its block only if the region has no written line. -/
theorem extract_keeps_blocks
    {settings : ExtractSettings} {path : Path} {source : String} {m : Module}
    (h : Module.extract settings path source = .ok (.found m)) :
    (∃ i p, FirstPackage (Element.scan source) i p ∧ m.package.statement = p.text ∧
      m.package.line = p.line ∧
      KeepsBlock .packageDoc (packageBlockAt (Element.scan source) i) m.package.description none
        false) ∧
    ∃ order : List Nat, order.Pairwise (· < ·) ∧
      List.Forall₂ (KeepsBlockAt (Element.scan source)) order m.items := by
  have hextracts := extracts_ofElements settings.extensions path (Element.scan source)
  change Extracts _ _ _ (Module.extract settings path source) at hextracts
  rw [h] at hextracts
  cases hextracts with
  | @found i p description test items flavor hfirst hblock hitems hflavor =>
      refine ⟨⟨i, p, hfirst, rfl, rfl, ?_⟩, ?_⟩
      · exact keepsBlock_none (isMarkedLine_packageBlockAt source i) hblock
      · obtain ⟨order, hsorted, -, hall, -⟩ := hitems.positions
        exact ⟨order, hsorted, hall.imp fun _ _ hat => hat.keepsBlockAt⟩

/-- A fenced line of a routine is the test, and the line behind the region stays a description. -/
theorem extract_keeps_routine_block :
    let source := "package P;\n### Adds.\n### ```\n### ok(1);\n### ```\n### Fast.\nsub f \x7b\x7d\n"
    let item : Item := ⟨.routine (some "ok(1);"), "sub f", "Adds.\nFast.", 7⟩
    Module.extract {} ⟨"lib/P.pm"⟩ source =
        .ok (.found ⟨⟨"lib/P.pm"⟩, ⟨"package P", "", 1⟩, [item], .core⟩) ∧
      ∃ order : List Nat, order.Pairwise (· < ·) ∧
        List.Forall₂ (KeepsBlockAt (Element.scan source)) order [item] := by
  intro source item
  have hextract : Module.extract {} ⟨"lib/P.pm"⟩ source =
      .ok (.found ⟨⟨"lib/P.pm"⟩, ⟨"package P", "", 1⟩, [item], .core⟩) := by
    decide +kernel
  exact ⟨hextract, (extract_keeps_blocks hextract).2⟩

/-- The fenced line of a package is in no record. -/
theorem extract_loses_package_test :
    Module.extract {} ⟨"lib/P.pm"⟩ "package P;\n##! Text.\n##! ```\n##! ok(1);\n##! ```\n" =
      .ok (.found ⟨⟨"lib/P.pm"⟩, ⟨"package P", "Text.", 1⟩, [], .core⟩) ∧
    "ok(1);" ∉ Text.lines "Text." := by
  decide +kernel

end Extract

end MarkerDoc
