import MarkerDoc.Module.Extract
import MarkerDoc.Proofs.LineEnding.Scanner

/-!
# Carriage returns and documentation

Extraction reads the comments, the kinds and the lines of the elements, and hands the statements on
as they are.  With carriage returns in the source it therefore comes to the same outcome, and the
statements of the module differ only by the carriage returns of the line breaks they contain.
-/

namespace MarkerDoc

/-- The text without its carriage returns. -/
def withoutReturns (s : String) : String :=
  String.ofList (s.toList.filter (· != '\r'))

theorem withoutReturns_withReturns (s : String) :
    withoutReturns (withReturns s) = withoutReturns s := by
  have hfilter : ∀ cs : List Char,
      (Text.crlf cs).filter (· != '\r') = cs.filter (· != '\r') := by
    intro cs
    induction cs with
    | nil => rfl
    | cons c cs ih =>
        by_cases hc : c = '\n'
        · simp [hc, ih]
        · rw [Text.crlf_cons_of_ne hc, List.filter_cons, List.filter_cons, ih]
  rw [withoutReturns, toList_withReturns, hfilter, withoutReturns]

/-! ## Changing statements -/

def PackageItem.mapStatement (f : String → String) (p : PackageItem) : PackageItem :=
  { p with statement := f p.statement }

def Item.mapStatement (f : String → String) (i : Item) : Item :=
  { i with statement := f i.statement }

/-- The module with every statement changed, and all else as it was. -/
def Module.mapStatements (f : String → String) (m : Module) : Module :=
  { m with
    package := m.package.mapStatement f
    items := m.items.map (Item.mapStatement f) }

theorem Module.ofElements_eq
    {es es' : List Element} (extensions : List String) (path : Path)
    (h : List.Forall₂ Element.Corresponds es es') :
    Module.ofElements extensions path es' =
      (Module.ofElements extensions path es).map
        (Extraction.map (Module.mapStatements withReturns)) := by
  have hrestates : List.Forall₂ (Element.Restates withReturns id) es es' :=
    h.imp fun _ _ he => ⟨he.kind, he.line, he.comment, he.statement⟩
  have hlines : ExtractError.mapLine id = id := by
    funext error
    cases error <;> rfl
  rw [Module.ofElements_restate extensions path hrestates, hlines]
  cases Module.ofElements extensions path es <;> rfl

/-! ## Line endings -/

/-- The same element as far as carriage returns do not count. -/
structure Element.SameUpToReturns (e e' : Element) : Prop where
  kind : e'.kind = e.kind
  line : e'.line = e.line
  comment : e.marker? ≠ none → e'.text = e.text
  other : e.marker? = none → withoutReturns e'.text = withoutReturns e.text

/-- A source with carriage returns before its line feeds has the same elements, and gives the same
documentation up to the carriage returns inside statements. -/
theorem documentation_withReturns (source : String) :
    List.Forall₂ Element.SameUpToReturns (Element.scan source)
        (Element.scan (withReturns source)) ∧
      ∀ (settings : ExtractSettings) (path : Path),
        Module.extract settings path (withReturns source) =
          (Module.extract settings path source).map
            (Extraction.map (Module.mapStatements withReturns)) := by
  have hscan := Element.forall₂_scan source
  have hsame : ∀ e e', Element.Corresponds e e' → Element.SameUpToReturns e e' := by
    intro e e' he
    refine ⟨he.kind, he.line, he.comment, fun hmarker => ?_⟩
    rw [he.statement hmarker, withoutReturns_withReturns]
  refine ⟨hscan.imp hsame, ?_⟩
  intro settings path
  exact Module.ofElements_eq settings.extensions path hscan

end MarkerDoc
