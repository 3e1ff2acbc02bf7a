import MarkerDoc.Module.Extract
import Mathlib.Data.List.Forall2
import Mathlib.Data.List.TakeDrop

/-!
# Extraction from restated elements

Extraction reads the comments and the kinds of the elements, copies their lines into the records and
into the error of a malformed block, and hands the statements on as they are.  From elements whose
lines and statements are changed it therefore comes to the same outcome with these lines and
statements changed.
-/

namespace MarkerDoc

/-- The same element with its line changed by `line`, and its text by `text` unless it is a
comment. -/
structure Element.Restates (text : String → String) (line : Nat → Nat) (e e' : Element) :
    Prop where
  kind : e'.kind = e.kind
  line : e'.line = line e.line
  comment : e.marker? ≠ none → e'.text = e.text
  statement : e.marker? = none → e'.text = text e.text

/-! ## Changed records -/

def CommentLine.mapLine (line : Nat → Nat) (l : CommentLine) : CommentLine :=
  { l with line := line l.line }

def Malformed.mapLine (line : Nat → Nat) (m : Malformed) : Malformed :=
  { m with line := line m.line }

def ExtractError.mapLine (line : Nat → Nat) : ExtractError → ExtractError
  | .malformed block => .malformed (block.mapLine line)
  | .missingPackage => .missingPackage
  | .unreadable cause => .unreadable cause

section

variable (text : String → String) (line : Nat → Nat)

def PackageItem.restate (p : PackageItem) : PackageItem :=
  { p with statement := text p.statement, line := line p.line }

def Item.restate (i : Item) : Item :=
  { i with statement := text i.statement, line := line i.line }

/-- The module with every statement and every line changed. -/
def Module.restate (m : Module) : Module :=
  { m with
    package := m.package.restate text line
    items := m.items.map (Item.restate text line) }

end

/-! ## Blocks -/

namespace DocBlock

variable (g : Nat → Nat)

def FenceState.mapLine : FenceState → FenceState
  | .before => .before
  | .opened line => .opened (g line)
  | .closed => .closed

def Reading.mapLine (r : Reading) : Reading :=
  { r with state := r.state.mapLine g }

theorem Reading.step_mapLine (r : Reading) (l : Line) :
    (r.mapLine g).step (Prod.map g id l) = (r.step l).mapLine g := by
  obtain ⟨state, description, test⟩ := r
  cases state with
  | before => cases h : isOpeningFence l.2 <;> simp [mapLine, step, FenceState.mapLine, h]
  | opened line => cases h : isClosingFence l.2 <;> simp [mapLine, step, FenceState.mapLine, h]
  | closed => rfl

theorem Reading.result_mapLine (r : Reading) :
    (r.mapLine g).result = r.result.mapError (Malformed.mapLine g) := by
  obtain ⟨state, description, test⟩ := r
  cases state <;> rfl

theorem ofLines_map (lines : List Line) :
    ofLines (lines.map (Prod.map g id)) = (ofLines lines).mapError (Malformed.mapLine g) := by
  have hfold : lines.foldl (fun r l => r.step (Prod.map g id l)) (Reading.mapLine g {}) =
      (lines.foldl Reading.step {}).mapLine g :=
    List.foldl_hom (Reading.mapLine g) (Reading.step_mapLine g)
  rw [ofLines, ofLines, List.foldl_map, ← Reading.result_mapLine, ← hfold]
  rfl

theorem stripped_map (lines : List CommentLine) (marker : Marker) :
    stripped (lines.map (CommentLine.mapLine g)) marker =
      (stripped lines marker).map (Prod.map g id) := by
  unfold stripped
  rw [List.takeWhile_map, List.filterMap_map, List.map_filterMap]
  congr 1
  funext l
  simp only [Function.comp_apply, CommentLine.mapLine, Option.map_map]
  rfl

/-- The lines of a block count for nothing but the place of an error. -/
theorem classify_map (lines : List CommentLine) (marker : Marker) :
    classify (lines.map (CommentLine.mapLine g)) marker =
      (classify lines marker).mapError (Malformed.mapLine g) := by
  unfold classify
  rw [stripped_map]
  cases stripped lines marker with
  | nil => rfl
  | cons l rest =>
      simp only [List.map_cons]
      have hlines := ofLines_map g (l :: rest)
      simp only [List.map_cons] at hlines
      simp only [Prod.map_fst, Prod.map_snd, id_eq] at hlines ⊢
      split_ifs
      · rfl
      · rfl
      · exact hlines

end DocBlock

/-! ## Items -/

theorem forall₂_takeWhile
    {α : Type} {r : α → α → Prop} {p : α → Bool} (hp : ∀ a b, r a b → p b = p a) {xs ys : List α}
    (h : List.Forall₂ r xs ys) : List.Forall₂ r (xs.takeWhile p) (ys.takeWhile p) := by
  induction h with
  | nil => exact .nil
  | @cons a b xs ys hab _ ih =>
      simp only [List.takeWhile_cons, hp a b hab]
      split
      · exact .cons hab ih
      · exact .nil

theorem Element.marker?_of_kind {e e' : Element} (h : e'.kind = e.kind) :
    e'.marker? = e.marker? := by
  unfold Element.marker?
  rw [h]

theorem Element.include?_of_kind {e e' : Element} (h : e'.kind = e.kind) :
    e'.include? = e.include? := by
  unfold Element.include?
  rw [h]

theorem Element.isPackage_of_kind {e e' : Element} (h : e'.kind = e.kind) :
    e'.isPackage = e.isPackage := by
  unfold Element.isPackage
  rw [h]

section

variable {text : String → String} {line : Nat → Nat} {e e' : Element}
  {es es' before before' after after' : List Element}

theorem Element.Restates.text_eq (h : e.Restates id line e') : e'.text = e.text := by
  by_cases hmarker : e.marker? = none
  · exact h.statement hmarker
  · exact h.comment hmarker

theorem Element.Restates.eq_of_span
    {start stop : Nat} (h : e.Restates id line e') (hstart : e'.span.start = start)
    (hstop : e'.span.stop = stop) : e' = { e with span := ⟨start, stop⟩, line := line e.line } := by
  rw [← hstart, ← hstop, ← h.line, ← h.kind, ← h.text_eq]

theorem Element.Restates.ofElement?_eq (h : e.Restates text line e') :
    CommentLine.ofElement? e' = (CommentLine.ofElement? e).map (CommentLine.mapLine line) := by
  unfold CommentLine.ofElement?
  rw [marker?_of_kind h.kind, h.line]
  cases hmarker : e.marker? with
  | none => rfl
  | some marker =>
      rw [h.comment (by simp [hmarker])]
      rfl

namespace Extract

theorem leadingRun_eq
    (marker : Marker) (h : List.Forall₂ (Element.Restates text line) es es') :
    leadingRun marker es' = (leadingRun marker es).map (CommentLine.mapLine line) := by
  have hrun : List.Forall₂ (Element.Restates text line)
      (es.takeWhile (·.marker? == some marker)) (es'.takeWhile (·.marker? == some marker)) :=
    forall₂_takeWhile (fun _ _ he => by rw [Element.marker?_of_kind he.kind]) h
  unfold leadingRun
  generalize es.takeWhile _ = run at hrun
  generalize es'.takeWhile _ = run' at hrun
  induction hrun with
  | nil => rfl
  | @cons e e' _ _ he _ ih =>
      rw [List.filterMap_cons, List.filterMap_cons, he.ofElement?_eq, ih]
      cases CommentLine.ofElement? e <;> rfl

theorem packageItem_eq
    (he : e.Restates text line e') (hpackage : e.isPackage = true)
    (h : List.Forall₂ (Element.Restates text line) after after') :
    packageItem e' after' =
      ((packageItem e after).map (Extraction.map (PackageItem.restate text line))).mapError
        (Malformed.mapLine line) := by
  have htext : e'.text = text e.text := by
    apply he.statement
    unfold Element.isPackage at hpackage
    unfold Element.marker?
    split at hpackage
    · next hkind => rw [hkind]
    · cases hpackage
  unfold packageItem packageBlock
  rw [leadingRun_eq .packageDoc h, DocBlock.classify_map, he.line, htext]
  rcases DocBlock.classify (leadingRun .packageDoc after) .packageDoc with _ | (_ | _) <;> rfl

theorem documentedItem_eq
    (kind : Option String → Item.Kind) (he : e.Restates text line e') (hmarker : e.marker? = none)
    (h : List.Forall₂ (Element.Restates text line) before before') :
    documentedItem kind before' e' =
      ((documentedItem kind before e).map (Extraction.map (Item.restate text line))).mapError
        (Malformed.mapLine line) := by
  unfold documentedItem itemBlock
  rw [leadingRun_eq .itemDoc h, ← List.map_reverse, DocBlock.classify_map, he.line,
    he.statement hmarker]
  rcases DocBlock.classify (leadingRun .itemDoc before).reverse .itemDoc with _ | (_ | _) <;> rfl

theorem declared?_eq
    (flavor : Flavor) (he : e.Restates text line e')
    (h : List.Forall₂ (Element.Restates text line) before before') :
    declared? flavor before' e' =
      (declared? flavor before e).map fun result =>
        (result.map (Extraction.map (Item.restate text line))).mapError
          (Malformed.mapLine line) := by
  unfold declared?
  rw [he.kind]
  split
  · next name hkind =>
      have hmarker : e.marker? = none := by rw [Element.marker?, hkind]
      simp only [routineItem, he.kind, hkind, Option.map_some]
      split
      · rfl
      · rw [documentedItem_eq _ he hmarker h]
  · next hkind =>
      have hmarker : e.marker? = none := by rw [Element.marker?, hkind]
      rw [attributeItem, documentedItem_eq _ he hmarker h]
      rfl
  · next hkind =>
      have hmarker : e.marker? = none := by rw [Element.marker?, hkind]
      rw [modifierItem, documentedItem_eq _ he hmarker h]
      rfl
  · rfl

theorem items_eq
    (flavor : Flavor) (hbefore : List.Forall₂ (Element.Restates text line) before before')
    (h : List.Forall₂ (Element.Restates text line) es es') :
    items flavor before' es' =
      ((items flavor before es).map (List.map (Item.restate text line))).mapError
        (Malformed.mapLine line) := by
  induction h generalizing before before' with
  | nil => rfl
  | @cons e e' es es' he _ ih =>
      have hrest := ih (.cons he hbefore)
      unfold items
      rw [declared?_eq flavor he hbefore, hrest]
      rcases declared? flavor before e with _ | (_ | (item | _))
      · rfl
      · rfl
      · cases items flavor (e :: before) es <;> rfl
      · rfl

theorem firstPackage?_rel (h : List.Forall₂ (Element.Restates text line) es es') :
    Option.Rel (fun p p' => p.1.Restates text line p'.1 ∧ p.1.isPackage = true ∧
      List.Forall₂ (Element.Restates text line) p.2 p'.2)
      (firstPackage? es) (firstPackage? es') := by
  induction h with
  | nil => exact .none
  | cons he hes ih =>
      unfold firstPackage?
      rw [Element.isPackage_of_kind he.kind]
      split
      · next hpackage => exact .some ⟨he, hpackage, hes⟩
      · exact ih

end Extract

theorem Module.ofElements_restate
    (extensions : List String) (path : Path)
    (h : List.Forall₂ (Element.Restates text line) es es') :
    Module.ofElements extensions path es' =
      ((Module.ofElements extensions path es).map
        (Extraction.map (Module.restate text line))).mapError (ExtractError.mapLine line) := by
  have hincludes : es'.filterMap Element.include? = es.filterMap Element.include? := by
    induction h with
    | nil => rfl
    | cons he _ ih =>
        rw [List.filterMap_cons, List.filterMap_cons, Element.include?_of_kind he.kind, ih]
  have hitems := fun flavor => Extract.items_eq flavor .nil h
  have hpackage := Extract.firstPackage?_rel h
  unfold ofElements
  rw [hincludes]
  generalize Extract.firstPackage? es = first at hpackage
  generalize Extract.firstPackage? es' = first' at hpackage
  cases hpackage with
  | none => rfl
  | @some p p' hp =>
      obtain ⟨he, hpackage, hafter⟩ := hp
      simp only [Extract.packageItem_eq he hpackage hafter, hitems]
      rcases Extract.packageItem p.1 p.2 with _ | (package | _)
      · rfl
      · cases Extract.items (Flavor.detect (es.filterMap Element.include?) extensions) [] es <;> rfl
      · rfl

end

end MarkerDoc
