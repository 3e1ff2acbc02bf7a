import MarkerDoc.Module.Extract
import MarkerDoc.Page
import Mathlib.Data.List.Forall2
import Mathlib.Data.List.Nodup

/-!
# Anchors

The contents of a page link to the headings of its items by anchors, and both sides take the anchor
from the kind and the title of the item.  The kind can be read off an anchor again, but of the title
only what is left in lower case with hyphens for all but letters and digits.  So an entry leads to
the heading of its own item, and to no other, exactly when no other item of its kind has a title
that is alike in this sense.
-/

namespace MarkerDoc

namespace Text

/-! ## Lower case of ASCII -/

def IsAscii (s : String) : Prop :=
  ∀ c ∈ s.toList, c.toNat < 0x80

theorem lowerFrom_of_ascii
    {cs : List Char} (h : ∀ c ∈ cs, c.toNat < 0x80) (before : List Char) :
    lowerFrom before cs = cs.map Char.toLower := by
  induction cs generalizing before with
  | nil =>
      rfl
  | cons c cs ih =>
      obtain ⟨hc, hcs⟩ := List.forall_mem_cons.mp h
      have hsigma : c ≠ capitalSigma := by
        rintro rfl
        exact absurd hc (by decide)
      rw [lowerFrom, if_neg hsigma, lowerChar, if_pos hc, ih hcs]
      rfl

theorem toLower_of_isAscii {s : String} (h : IsAscii s) :
    (toLower s).toList = s.toList.map Char.toLower := by
  rw [toLower, String.toList_ofList, lowerFrom_of_ascii h]

theorem isAlphanumeric_toLower {c : Char} (h : c.toNat < 0x80) :
    isAlphanumeric c.toLower = c.isAlphanum := by
  have hall : ∀ n : Fin 128, isAlphanumeric (Char.ofNat n).toLower = (Char.ofNat n).isAlphanum := by
    decide +kernel
  simpa using hall ⟨c.toNat, h⟩

end Text

namespace Page

open Text

/-! ## Titles in anchors -/

/-- Two titles are alike in anchors: in lower case they differ only where neither has a letter or
digit. -/
def Alike (a b : String) : Prop :=
  List.Forall₂ (fun c d => c = d ∨ isAlphanumeric c = false ∧ isAlphanumeric d = false)
    (toLower a).toList (toLower b).toList

theorem slug_eq_iff (a b : String) : slug a = slug b ↔ Alike a b := by
  have hhyphen : isAlphanumeric '-' = false := by
    decide
  have hchar : ∀ c d : Char,
      ((if isAlphanumeric c then c else '-') = if isAlphanumeric d then d else '-') ↔
        c = d ∨ isAlphanumeric c = false ∧ isAlphanumeric d = false := by
    intro c d
    by_cases hc : isAlphanumeric c = true <;> by_cases hd : isAlphanumeric d = true
    all_goals simp only [hc, hd]
    all_goals grind
  rw [slug, slug, String.ofList_inj, ← List.forall₂_eq_eq_eq, List.forall₂_map_left_iff,
    List.forall₂_map_right_iff]
  simp only [hchar]
  rfl

/-- Two texts have the same letters and digits in the same places, up to case. -/
def SameUpToCase (a b : String) : Prop :=
  List.Forall₂ (fun c d => c.toLower = d.toLower ∨ c.isAlphanum = false ∧ d.isAlphanum = false)
    a.toList b.toList

theorem alike_iff_of_isAscii
    {a b : String} (ha : IsAscii a) (hb : IsAscii b) : Alike a b ↔ SameUpToCase a b := by
  rw [Alike, SameUpToCase, toLower_of_isAscii ha, toLower_of_isAscii hb, List.forall₂_map_left_iff,
    List.forall₂_map_right_iff, List.forall₂_iff_zip, List.forall₂_iff_zip]
  apply and_congr_right
  intro _
  refine forall_congr' fun c => forall_congr' fun d => imp_congr_right fun hmem => ?_
  obtain ⟨hc, hd⟩ := List.of_mem_zip hmem
  rw [isAlphanumeric_toLower (ha c hc), isAlphanumeric_toLower (hb d hd)]

theorem anchor_eq_iff (i j : Item) :
    anchor i = anchor j ↔ kindWord i = kindWord j ∧ Alike (title i) (title j) := by
  rw [← slug_eq_iff]
  constructor
  · intro h
    have hhead := congrArg (fun s : String => s.toList.head?) h
    -- The words for the kinds differ in their first letters.
    have hkind : kindWord i = kindWord j := by
      cases hi : i.kind <;> cases hj : j.kind
      all_goals simp [anchor, kindWord, hi, hj] at hhead ⊢
    rw [anchor, anchor, hkind] at h
    exact ⟨hkind, (String.append_right_inj _).mp h⟩
  · rintro ⟨hkind, hslug⟩
    rw [anchor, anchor, hkind, hslug]

/-! ## The pieces of a page -/

/-- The pieces of a page: entries of the contents, headings of items, and all the rest. -/
inductive Piece where
  | link (i : Item)
  | heading (i : Item)
  | text (s : String)

namespace Piece

def write : Piece → String
  | .link i => contentsEntry i
  | .heading i => paragraph ("### <a id=\"" ++ anchor i ++ "\"></a>`" ++ title i ++ "`")
  | .text s => s

def link? : Piece → Option Item
  | .link i => some i
  | _ => none

def heading? : Piece → Option Item
  | .heading i => some i
  | _ => none

end Piece

/-- What stands below the heading of an item. -/
def itemBody (i : Item) : String :=
  codeBlock i.statement ++
    (if i.description = "" then "" else paragraph i.description) ++
    (i.testBody?.elim "" fun test => paragraph "**Example:**" ++ codeBlock test) ++
    paragraph "---"

def itemPieces (i : Item) : List Piece :=
  [.heading i, .text (itemBody i)]

def groupPieces (heading : String) (items : List Item) : List Piece :=
  if items.isEmpty then []
  else .text (paragraph ("## " ++ heading)) :: items.flatMap itemPieces

def pieces (m : Module) : List Piece :=
  .text (paragraph ("# " ++ m.name)) ::
    .text (if m.package.description = "" then "" else paragraph m.package.description) ::
    (if m.items.isEmpty then []
     else
      .text (paragraph "## Contents") :: (m.items.map .link ++ .text "\n" ::
        (groupPieces "Routines" (m.items.filter Item.isRoutine) ++
          groupPieces "Attributes" (m.items.filter Item.isAttribute) ++
          groupPieces "Modifiers" (m.items.filter Item.isModifier))))

/-- The items with a heading, in the order of the page. -/
def headings (m : Module) : List Item :=
  (pieces m).filterMap Piece.heading?

def writeAll (ps : List Piece) : String :=
  String.join (ps.map Piece.write)

theorem writeAll_cons (p : Piece) (ps : List Piece) :
    writeAll (p :: ps) = p.write ++ writeAll ps := by
  rw [writeAll, List.map_cons, String.join_cons]
  rfl

theorem writeAll_append (ps qs : List Piece) :
    writeAll (ps ++ qs) = writeAll ps ++ writeAll qs := by
  rw [writeAll, List.map_append, String.join_append]
  rfl

theorem writeAll_itemPieces (i : Item) : writeAll (itemPieces i) = itemSection i := by
  have hnil : writeAll [] = "" := rfl
  rw [itemPieces, writeAll_cons, writeAll_cons, hnil, String.append_empty, Piece.write, Piece.write,
    itemBody, itemSection]
  cases i.testBody? <;> simp only [Option.elim_none, Option.elim_some, String.append_assoc]

theorem writeAll_flatMap_itemPieces (items : List Item) :
    writeAll (items.flatMap itemPieces) = String.join (items.map itemSection) := by
  induction items with
  | nil =>
      rfl
  | cons i items ih =>
      rw [List.flatMap_cons, writeAll_append, writeAll_itemPieces, ih, List.map_cons,
        String.join_cons]

theorem writeAll_groupPieces (heading : String) (items : List Item) :
    writeAll (groupPieces heading items) = itemGroup heading items := by
  rw [groupPieces, itemGroup]
  split_ifs
  · rfl
  · rw [writeAll_cons, writeAll_flatMap_itemPieces]
    rfl

theorem ofModule_eq_writeAll (m : Module) : ofModule m = writeAll (pieces m) := by
  have hlinks : writeAll (m.items.map .link) = String.join (m.items.map contentsEntry) := by
    rw [writeAll, List.map_map]
    rfl
  rw [pieces, writeAll_cons, writeAll_cons, ofModule, String.append_assoc]
  congr 2
  split_ifs
  · rfl
  · rw [writeAll_cons, writeAll_append, writeAll_cons, writeAll_append, writeAll_append, hlinks]
    simp only [writeAll_groupPieces, Piece.write, line, String.append_assoc]

theorem link?_groupPieces (heading : String) (items : List Item) :
    (groupPieces heading items).filterMap Piece.link? = [] := by
  rw [List.filterMap_eq_nil_iff]
  intro p hp
  rw [groupPieces] at hp
  split_ifs at hp
  · cases hp
  · rcases List.mem_cons.mp hp with rfl | hp
    · rfl
    · obtain ⟨i, -, hp⟩ := List.mem_flatMap.mp hp
      simp only [itemPieces, List.mem_cons, List.not_mem_nil, or_false] at hp
      rcases hp with rfl | rfl <;> rfl

theorem heading?_groupPieces (heading : String) (items : List Item) :
    (groupPieces heading items).filterMap Piece.heading? = items := by
  rw [groupPieces]
  split_ifs with hempty
  · exact (List.isEmpty_iff.mp hempty).symm
  · rw [List.filterMap_cons_none rfl]
    clear hempty
    induction items with
    | nil => rfl
    | cons i items ih =>
        rw [List.flatMap_cons, List.filterMap_append, ih]
        rfl

theorem link?_pieces (m : Module) : (pieces m).filterMap Piece.link? = m.items := by
  have hlinks : (m.items.map Piece.link).filterMap Piece.link? = m.items := by
    rw [List.filterMap_map]
    exact List.filterMap_some
  rw [pieces, List.filterMap_cons_none rfl, List.filterMap_cons_none rfl]
  split_ifs with hempty
  · exact (List.isEmpty_iff.mp hempty).symm
  · rw [List.filterMap_cons_none rfl, List.filterMap_append, hlinks, List.filterMap_cons_none rfl,
      List.filterMap_append, List.filterMap_append]
    simp only [link?_groupPieces, List.append_nil]

/-- The kinds divide the items. -/
theorem groups_perm (items : List Item) :
    (items.filter Item.isRoutine ++ items.filter Item.isAttribute ++
      items.filter Item.isModifier).Perm items := by
  have hattributes : items.filter Item.isAttribute =
      (items.filter fun i => !i.isRoutine).filter Item.isAttribute := by
    rw [List.filter_filter]
    refine List.filter_congr fun i _ => ?_
    cases hi : i.kind <;> simp [Item.isAttribute, Item.isRoutine, hi]
  have hmodifiers : items.filter Item.isModifier =
      (items.filter fun i => !i.isRoutine).filter fun i => !i.isAttribute := by
    rw [List.filter_filter]
    refine List.filter_congr fun i _ => ?_
    cases hi : i.kind <;> simp [Item.isModifier, Item.isAttribute, Item.isRoutine, hi]
  rw [List.append_assoc, hattributes, hmodifiers]
  exact ((List.filter_append_perm _ _).append_left _).trans (List.filter_append_perm _ _)

/-- Every item has one heading. -/
theorem headings_perm (m : Module) : (headings m).Perm m.items := by
  have hlinks : (m.items.map Piece.link).filterMap Piece.heading? = [] := by
    simp [List.filterMap_eq_nil_iff, Piece.heading?]
  rw [headings, pieces, List.filterMap_cons_none rfl, List.filterMap_cons_none rfl]
  split_ifs with hempty
  · rw [List.isEmpty_iff.mp hempty]
    exact .nil
  · rw [List.filterMap_cons_none rfl, List.filterMap_append, hlinks, List.filterMap_cons_none rfl,
      List.filterMap_append, List.filterMap_append]
    simp only [heading?_groupPieces, List.nil_append]
    exact groups_perm m.items

/-! ## Where the contents lead -/

/-- Every item is found by its key, and by its key alone, exactly when no two share one. -/
theorem filter_eq_singleton_iff
    {α β : Type} [DecidableEq β] (key : α → β) {xs ys : List α} (h : ys.Perm xs) :
    (∀ x ∈ xs, ys.filter (fun y => key y = key x) = [x]) ↔ (xs.map key).Nodup := by
  have hlength : ∀ b, (ys.filter fun y => key y = b).length = (xs.map key).count b := by
    intro b
    rw [← List.countP_eq_length_filter, h.countP_eq, List.count, List.countP_map]
    congr
  rw [List.nodup_iff_count_le_one]
  constructor
  · intro hfound b
    by_cases hb : b ∈ xs.map key
    · obtain ⟨x, hx, rfl⟩ := List.mem_map.mp hb
      rw [← hlength, hfound x hx]
      exact Nat.le_refl 1
    · rw [List.count_eq_zero_of_not_mem hb]
      exact Nat.zero_le 1
  · intro hcount x hx
    have hmem : x ∈ ys.filter fun y => key y = key x :=
      List.mem_filter.mpr ⟨h.mem_iff.mpr hx, by simp⟩
    have hle : (ys.filter fun y => key y = key x).length ≤ 1 := by
      rw [hlength]
      exact hcount (key x)
    obtain ⟨y, hy⟩ := List.length_eq_one_iff.mp
      (Nat.le_antisymm hle (List.length_pos_of_mem hmem))
    rw [hy] at hmem ⊢
    rw [List.mem_singleton.mp hmem]

/-- Where the contents of a page lead.  The entries are those of the items in their order, every
item has one heading, and each entry leads to the heading of its own item alone exactly when no two
items of a kind have titles that are alike.  In ASCII these are titles with the same letters and
digits in the same places, up to case. -/
theorem contents_resolve_iff (m : Module) :
    ofModule m = writeAll (pieces m) ∧ (pieces m).filterMap Piece.link? = m.items ∧
    (headings m).Perm m.items ∧
    ((∀ i ∈ m.items, (headings m).filter (fun j => anchor j = anchor i) = [i]) ↔
      m.items.Pairwise fun i j => ¬ (kindWord i = kindWord j ∧ Alike (title i) (title j))) ∧
    ∀ i j : Item, IsAscii (title i) → IsAscii (title j) →
      (Alike (title i) (title j) ↔ SameUpToCase (title i) (title j)) := by
  refine ⟨ofModule_eq_writeAll m, link?_pieces m, headings_perm m, ?_,
    fun i j => alike_iff_of_isAscii⟩
  rw [filter_eq_singleton_iff anchor (headings_perm m), List.nodup_iff_pairwise_ne,
    List.pairwise_map]
  simp only [ne_eq, anchor_eq_iff]

/-- Routines whose names differ in more than case have entries of their own. -/
theorem contents_resolve_of_longer_name :
    let all : Item := ⟨.routine none, "sub fetch_all", "", 2⟩
    let one : Item := ⟨.routine none, "sub Fetch", "", 3⟩
    let m : Module := ⟨⟨"lib/P.pm"⟩, ⟨"package P", "", 1⟩, [all, one], .core⟩
    IsAscii (title all) ∧ IsAscii (title one) ∧ ¬ Alike (title all) (title one) ∧
      ∀ i ∈ m.items, (headings m).filter (fun j => anchor j = anchor i) = [i] := by
  intro all one m
  have hall : title all = "fetch_all" := by
    decide +kernel
  have hone : title one = "Fetch" := by
    decide +kernel
  have hascii : IsAscii (title all) ∧ IsAscii (title one) := by
    simp [hall, hone, IsAscii]
  obtain ⟨-, -, -, hresolve, halike⟩ := contents_resolve_iff m
  have hdiffer : ¬ Alike (title all) (title one) := by
    rw [halike all one hascii.1 hascii.2, hall, hone]
    intro h
    exact absurd h.length_eq (by decide)
  refine ⟨hascii.1, hascii.2, hdiffer, hresolve.mpr ?_⟩
  simp [m, hdiffer]

/-- Two routines whose names differ only in case share an anchor, so both entries lead to both
headings. -/
theorem contents_of_case_variants_collide :
    let foo : Item := ⟨.routine none, "sub Foo", "", 2⟩
    let foo' : Item := ⟨.routine none, "sub foo", "", 3⟩
    let m : Module := ⟨⟨"lib/P.pm"⟩, ⟨"package P", "", 1⟩, [foo, foo'], .core⟩
    Module.extract {} ⟨"lib/P.pm"⟩ "package P;\nsub Foo \x7b\x7d\nsub foo \x7b\x7d\n" =
        .ok (.found m) ∧
      title foo ≠ title foo' ∧ anchor foo = anchor foo' ∧
      (headings m).filter (fun j => anchor j = anchor foo) = [foo, foo'] := by
  decide +kernel

end Page

end MarkerDoc
