import MarkerDoc.Module.Extract
import MarkerDoc.Proofs.DocBlock

/-!
# What is extracted from a stream of elements

The extraction goes over the elements once and carries the ones behind it along.  Here it is
described by positions instead: the block of a declaration is a run of comments next to it, a
declaration is selected by what it is and by the includes of the whole stream, and the result is
decided by the first package, by the first malformed block of a selected declaration and otherwise
by all the selected declarations in their order.
-/

namespace MarkerDoc.Extract

/-! ## Private names -/

/-- The last segment of the name begins with an underscore. -/
def HasPrivateName (name : String) : Prop :=
  ∃ front rest, name.toList = front ++ '_' :: rest ∧ (front = [] ∨ [':', ':'] <:+ front) ∧
    ¬ [':', ':'] <:+: rest

/-- An occurrence of the separator in a text with an underscore in it lies on one side of it. -/
theorem separator_beside_underscore
    {front rest before after : List Char}
    (h : front ++ '_' :: rest = before ++ [':', ':'] ++ after) :
    (before.length + 2 ≤ front.length) ∨ [':', ':'] <:+: rest := by
  rw [List.append_assoc] at h
  rcases List.append_eq_append_iff.mp h with ⟨gap, hbefore, hgap⟩ | ⟨gap, hfront, hgap⟩
  · cases gap with
    | nil => simp at hgap
    | cons d gap =>
        right
        have hrest : rest = gap ++ ([':', ':'] ++ after) := (List.cons.inj hgap).2
        exact ⟨gap, after, by rw [hrest, List.append_assoc]⟩
  · left
    -- The front holds all of the separator, whose colons are not the underscore.
    match gap, hgap with
    | [], hgap => simp at hgap
    | [d], hgap => simp at hgap
    | d :: e :: gap, _ => simp [hfront]

theorem isPrivate_iff (name : String) : isPrivate name = true ↔ HasPrivateName name := by
  have hstarts : isPrivate name = true ↔
      ∃ rest, Text.afterLastFrom [':', ':'] name.toList name.toList = '_' :: rest := by
    have hseparator : namespaceSeparator.toList = [':', ':'] := rfl
    have hunderscore : "_".toList = ['_'] := rfl
    rw [isPrivate, Text.afterLast, hseparator, Text.startsWith_iff, hunderscore,
      String.toList_ofList]
    exact ⟨fun ⟨rest, hrest⟩ => ⟨rest, hrest.symm⟩, fun ⟨rest, hrest⟩ => ⟨rest, hrest.symm⟩⟩
  rw [hstarts]
  rcases Text.afterLastFrom_cases (List.cons_ne_nil ':' [':']) name.toList name.toList with
    ⟨hnone, heq⟩ | ⟨front, hname, hlast⟩
  · rw [heq]
    constructor
    · rintro ⟨rest, hname⟩
      have hrest : rest <:+: name.toList := hname ▸ (List.suffix_cons '_' rest).isInfix
      exact ⟨[], rest, hname, .inl rfl, fun h => hnone (h.trans hrest)⟩
    · rintro ⟨front, rest, hname, rfl | ⟨g, rfl⟩, -⟩
      · exact ⟨rest, hname⟩
      · exact absurd ⟨g, '_' :: rest, hname.symm⟩ hnone
  · constructor
    · rintro ⟨rest, hrest⟩
      rw [hrest] at hname
      refine ⟨front ++ [':', ':'], rest, hname, .inr (List.suffix_append _ _), ?_⟩
      rintro ⟨g, after, hafter⟩
      have hle := hlast (front ++ [':', ':'] ++ '_' :: g) after (by rw [hname, ← hafter]; simp)
      simp at hle
    · rintro ⟨front', rest, hname', hfront', hrest⟩
      have hbeside := separator_beside_underscore (hname'.symm.trans hname)
      have hinside : front.length + 2 ≤ front'.length := hbeside.resolve_right hrest
      rcases hfront' with rfl | ⟨g, rfl⟩
      · simp at hinside
      · have hle := hlast g ('_' :: rest) hname'
        have hlength : (front ++ [':', ':']).length = (g ++ [':', ':']).length := by
          simp at hinside ⊢
          omega
        refine ⟨rest, ?_⟩
        exact (List.append_inj_right (hname.symm.trans hname') hlength)

/-! ## Blocks by position -/

/-- The block of the package at a position: the package comments directly after it. -/
def packageBlockAt (es : List Element) (i : Nat) : List CommentLine :=
  ((es.drop (i + 1)).takeWhile (·.marker? == some .packageDoc)).filterMap CommentLine.ofElement?

/-- The block of the declaration at a position: the item comments directly before it. -/
def itemBlockAt (es : List Element) (i : Nat) : List CommentLine :=
  ((es.take i).rtakeWhile (·.marker? == some .itemDoc)).filterMap CommentLine.ofElement?

theorem itemBlock_reverse (front rest : List Element) :
    itemBlock front.reverse =
      DocBlock.classify (itemBlockAt (front ++ rest) front.length) .itemDoc := by
  rw [itemBlock, itemBlockAt, leadingRun, List.take_left, ← List.filterMap_reverse]
  rfl

/-! ## Selected declarations -/

/-- Some include of the stream names one of the extensions. -/
def Extended (extensions : List String) (es : List Element) : Prop :=
  ∃ e ∈ es, ∃ m ∈ extensions, e.kind = .include m

theorem detect_eq_extended_iff (extensions : List String) (es : List Element) :
    Flavor.detect (es.filterMap Element.include?) extensions = .extended ↔
      Extended extensions es := by
  have hinclude : ∀ (e : Element) m, e.include? = some m ↔ e.kind = .include m := by
    intro e m
    unfold Element.include?
    split <;> simp_all
  unfold Flavor.detect Extended
  simp only [List.any_eq_true, List.mem_filterMap, hinclude, List.contains_iff_mem,
    ite_eq_left_iff, reduceCtorEq, imp_false, not_not]
  constructor
  · rintro ⟨m, ⟨e, he, hkind⟩, hm⟩
    exact ⟨e, he, m, hm, hkind⟩
  · rintro ⟨e, he, m, hm, hkind⟩
    exact ⟨m, ⟨e, he, hkind⟩, hm⟩

theorem eq_of_extended_iff
    {flavor flavor' : Flavor} (h : flavor = .extended ↔ flavor' = .extended) :
    flavor = flavor' := by
  cases flavor <;> cases flavor' <;> simp_all

/-- The kind of item that a selected declaration gives, with the test of its block. -/
inductive Selected (extensions : List String) (es : List Element) :
    Element → (Option String → Item.Kind) → Prop
  | routine {e : Element} {name : String} (hkind : e.kind = .routine name)
      (hpublic : ¬ HasPrivateName name) : Selected extensions es e .routine
  | attribute {e : Element} (hkind : e.kind = .attribute)
      (hextended : Extended extensions es) : Selected extensions es e fun _ => .attribute
  | modifier {e : Element} (hkind : e.kind = .modifier)
      (hextended : Extended extensions es) : Selected extensions es e fun _ => .modifier

/-- The declaration at a position is selected and its block cannot be read. -/
def MalformedAt (extensions : List String) (es : List Element) (i : Nat) (m : Malformed) : Prop :=
  ∃ e kind, es[i]? = some e ∧ Selected extensions es e kind ∧
    DocBlock.classify (itemBlockAt es i) .itemDoc = .error m

/-- The declaration at a position is selected, and its block documents it as an item. -/
def DocumentedAt (extensions : List String) (es : List Element) (i : Nat) (item : Item) : Prop :=
  ∃ e kind description test, es[i]? = some e ∧ Selected extensions es e kind ∧
    DocBlock.classify (itemBlockAt es i) .itemDoc = .ok (.documented description test) ∧
    item = { kind := kind test, statement := e.text, description, line := e.line }

theorem Selected.unique
    {extensions : List String} {es : List Element} {e : Element}
    {kind kind' : Option String → Item.Kind}
    (h : Selected extensions es e kind) (h' : Selected extensions es e kind') : kind = kind' := by
  rcases h with ⟨hkind, -⟩ | ⟨hkind, -⟩ | ⟨hkind, -⟩ <;>
    rcases h' with ⟨hkind', -⟩ | ⟨hkind', -⟩ | ⟨hkind', -⟩ <;>
    simp_all

theorem DocumentedAt.unique
    {extensions : List String} {es : List Element} {i : Nat} {item item' : Item}
    (h : DocumentedAt extensions es i item) (h' : DocumentedAt extensions es i item') :
    item = item' := by
  obtain ⟨e, kind, description, test, he, hselected, hblock, rfl⟩ := h
  obtain ⟨e', kind', description', test', he', hselected', hblock', rfl⟩ := h'
  obtain rfl : e = e' := Option.some.inj (he.symm.trans he')
  obtain rfl := hselected.unique hselected'
  have hsame := Except.ok.inj (hblock.symm.trans hblock')
  simp_all

theorem MalformedAt.unique
    {extensions : List String} {es : List Element} {i : Nat} {m m' : Malformed}
    (h : MalformedAt extensions es i m) (h' : MalformedAt extensions es i m') : m = m' := by
  obtain ⟨-, -, -, -, hblock⟩ := h
  obtain ⟨-, -, -, -, hblock'⟩ := h'
  exact Except.error.inj (hblock.symm.trans hblock')

/-! ## One element -/

section

variable {extensions : List String} {whole front es : List Element} {e : Element}

theorem declared?_of_selected
    {kind : Option String → Item.Kind} (before : List Element)
    (h : Selected extensions whole e kind) :
    declared? (Flavor.detect (whole.filterMap Element.include?) extensions) before e =
      some (documentedItem kind before e) := by
  rcases h with ⟨hkind, hpublic⟩ | ⟨hkind, hextended⟩ | ⟨hkind, hextended⟩
  · rw [← isPrivate_iff, Bool.not_eq_true] at hpublic
    simp [declared?, routineItem, hkind, hpublic]
  · rw [(detect_eq_extended_iff extensions whole).mpr hextended]
    simp [declared?, attributeItem, hkind]
  · rw [(detect_eq_extended_iff extensions whole).mpr hextended]
    simp [declared?, modifierItem, hkind]

/-- A declaration that is not selected is passed over without a look at its block. -/
theorem declared?_of_not_selected
    (before : List Element) (h : ∀ kind, ¬ Selected extensions whole e kind) :
    declared? (Flavor.detect (whole.filterMap Element.include?) extensions) before e = none ∨
      declared? (Flavor.detect (whole.filterMap Element.include?) extensions) before e =
        some (.ok (.skipped .isPrivate)) := by
  have hcore : ∀ kind', (Extended extensions whole → Selected extensions whole e kind') →
      Flavor.detect (whole.filterMap Element.include?) extensions = .core := by
    intro kind' hselected
    cases hflavor : Flavor.detect (whole.filterMap Element.include?) extensions with
    | core => rfl
    | extended =>
        exact absurd (hselected ((detect_eq_extended_iff extensions whole).mp hflavor)) (h kind')
  cases hkind : e.kind with
  | routine name =>
      right
      have hprivate : isPrivate name = true := by
        by_contra hpublic
        exact h _ (.routine hkind fun hname => hpublic ((isPrivate_iff name).mpr hname))
      simp [declared?, routineItem, hkind, hprivate]
  | «attribute» =>
      left
      rw [hcore _ (.attribute hkind)]
      simp [declared?, hkind]
  | modifier =>
      left
      rw [hcore _ (.modifier hkind)]
      simp [declared?, hkind]
  | package _ | «include» _ | comment _ | other =>
      left
      simp [declared?, hkind]

/-- What one element adds to the items of the elements after it. -/
inductive ItemStep (extensions : List String) (whole : List Element) (i : Nat)
    (rest : Except Malformed (List Item)) : Except Malformed (List Item) → Prop
  | malformed {m : Malformed} (hat : MalformedAt extensions whole i m) :
      ItemStep extensions whole i rest (.error m)
  | documented {item : Item} (hat : DocumentedAt extensions whole i item) :
      ItemStep extensions whole i rest (rest.map (item :: ·))
  | passed (hmalformed : ∀ m, ¬ MalformedAt extensions whole i m)
      (hdocumented : ∀ item, ¬ DocumentedAt extensions whole i item) :
      ItemStep extensions whole i rest rest

theorem itemStep (hwhole : whole = front ++ e :: es) :
    ItemStep extensions whole front.length
      (items (Flavor.detect (whole.filterMap Element.include?) extensions)
        (e :: front.reverse) es)
      (items (Flavor.detect (whole.filterMap Element.include?) extensions) front.reverse
        (e :: es)) := by
  have hat : whole[front.length]? = some e := by simp [hwhole]
  have hblock := itemBlock_reverse front (e :: es)
  rw [← hwhole] at hblock
  rw [items]
  by_cases hselected : ∃ kind, Selected extensions whole e kind
  · obtain ⟨kind, hkind⟩ := hselected
    rw [declared?_of_selected _ hkind]
    simp only [documentedItem, hblock]
    cases hclassify : DocBlock.classify (itemBlockAt whole front.length) .itemDoc with
    | error m =>
        exact .malformed ⟨e, kind, hat, hkind, hclassify⟩
    | ok block =>
        cases block with
        | ignored =>
            refine .passed ?_ ?_
            · rintro m ⟨-, -, -, -, h⟩
              simp [hclassify] at h
            · rintro item ⟨-, -, _, _, -, -, h, -⟩
              simp [hclassify] at h
        | documented description test =>
            have hdocumented : DocumentedAt extensions whole front.length
                { kind := kind test, statement := e.text, description, line := e.line } :=
              ⟨e, kind, description, test, hat, hkind, hclassify, rfl⟩
            generalize items _ (e :: front.reverse) es = rest
            cases rest with
            | error m => exact .documented hdocumented
            | ok rest => exact .documented hdocumented
  · -- Passed over for its kind, its flavor or its name: the block is never read.
    have hpassed : ItemStep extensions whole front.length
        (items (Flavor.detect (whole.filterMap Element.include?) extensions)
          (e :: front.reverse) es)
        (items (Flavor.detect (whole.filterMap Element.include?) extensions)
          (e :: front.reverse) es) := by
      refine .passed ?_ ?_
      · rintro m ⟨e', kind, he', hkind, -⟩
        obtain rfl : e = e' := Option.some.inj (hat.symm.trans he')
        exact hselected ⟨kind, hkind⟩
      · rintro item ⟨e', kind, _, _, he', hkind, -⟩
        obtain rfl : e = e' := Option.some.inj (hat.symm.trans he')
        exact hselected ⟨kind, hkind⟩
    rcases declared?_of_not_selected front.reverse fun kind hkind => hselected ⟨kind, hkind⟩ with
      hnone | hskipped
    · rw [hnone]
      exact hpassed
    · rw [hskipped]
      exact hpassed

end

/-! ## All elements -/

/-- The first malformed block of a selected declaration, from a position on. -/
def FirstMalformed (extensions : List String) (es : List Element) (start : Nat) (m : Malformed) :
    Prop :=
  ∃ i, start ≤ i ∧ MalformedAt extensions es i m ∧
    ∀ j, start ≤ j → j < i → ∀ m', ¬ MalformedAt extensions es j m'

/-- The items of all the selected declarations that are documented, from a position on: each one
once, in the order of the declarations, and no block of a selected declaration is malformed. -/
structure AllItems (extensions : List String) (es : List Element) (start : Nat)
    (found : List Item) : Prop where
  readable : ∀ i m, start ≤ i → ¬ MalformedAt extensions es i m
  positions : ∃ order : List Nat, order.Pairwise (· < ·) ∧ (∀ i ∈ order, start ≤ i) ∧
    List.Forall₂ (DocumentedAt extensions es) order found ∧
    ∀ i item, start ≤ i → DocumentedAt extensions es i item → i ∈ order

/-- What the items from a position on can be. -/
inductive Collected (extensions : List String) (es : List Element) (start : Nat) :
    Except Malformed (List Item) → Prop
  | malformed {m : Malformed} (h : FirstMalformed extensions es start m) :
      Collected extensions es start (.error m)
  | all {found : List Item} (h : AllItems extensions es start found) :
      Collected extensions es start (.ok found)

section

variable {extensions : List String} {es : List Element} {start : Nat}

theorem FirstMalformed.earlier
    {m : Malformed} (h : FirstMalformed extensions es (start + 1) m)
    (hhere : ∀ m', ¬ MalformedAt extensions es start m') :
    FirstMalformed extensions es start m := by
  obtain ⟨i, hi, hat, hbefore⟩ := h
  refine ⟨i, by omega, hat, fun j hj hji m' => ?_⟩
  rcases Nat.eq_or_lt_of_le hj with rfl | hj
  · exact hhere m'
  · exact hbefore j hj hji m'

theorem AllItems.earlier
    {found : List Item} (h : AllItems extensions es (start + 1) found)
    (hhere : ∀ m, ¬ MalformedAt extensions es start m)
    (hnone : ∀ item, ¬ DocumentedAt extensions es start item) :
    AllItems extensions es start found := by
  obtain ⟨hreadable, positions, hsorted, hstart, hitems, hall⟩ := h
  constructor
  · intro i m hi
    rcases Nat.eq_or_lt_of_le hi with rfl | hi
    · exact hhere m
    · exact hreadable i m hi
  · refine ⟨positions, hsorted, fun i hi => Nat.le_of_lt (hstart i hi), hitems, ?_⟩
    intro i item hi hat
    rcases Nat.eq_or_lt_of_le hi with rfl | hi
    · exact absurd hat (hnone item)
    · exact hall i item hi hat

theorem MalformedAt.not_documentedAt
    {i : Nat} {m : Malformed} {item : Item} (h : MalformedAt extensions es i m) :
    ¬ DocumentedAt extensions es i item := by
  rintro ⟨-, -, _, _, -, -, hblock', -⟩
  obtain ⟨-, -, -, -, hblock⟩ := h
  simp [hblock] at hblock'

theorem AllItems.cons
    {found : List Item} {item : Item} (h : AllItems extensions es (start + 1) found)
    (hat : DocumentedAt extensions es start item) :
    AllItems extensions es start (item :: found) := by
  obtain ⟨hreadable, positions, hsorted, hstart, hitems, hall⟩ := h
  constructor
  · intro i m hi hmalformed
    rcases Nat.eq_or_lt_of_le hi with rfl | hi
    · exact hmalformed.not_documentedAt hat
    · exact hreadable i m hi hmalformed
  · refine ⟨start :: positions, List.pairwise_cons.mpr ⟨fun i hi => hstart i hi, hsorted⟩, ?_,
      .cons hat hitems, ?_⟩
    · intro i hi
      rcases List.mem_cons.mp hi with rfl | hi
      · exact Nat.le_refl i
      · exact Nat.le_of_lt (hstart i hi)
    · intro i item' hi hat'
      rcases Nat.eq_or_lt_of_le hi with rfl | hi
      · exact List.mem_cons_self
      · exact List.mem_cons_of_mem _ (hall i item' hi hat')

theorem Collected.of_step
    {rest result : Except Malformed (List Item)}
    (hrest : Collected extensions es (start + 1) rest)
    (hstep : ItemStep extensions es start rest result) : Collected extensions es start result := by
  cases hstep with
  | malformed hat =>
      exact .malformed ⟨start, Nat.le_refl _, hat, fun j hj hj' => by omega⟩
  | documented hat =>
      cases hrest with
      | malformed h => exact .malformed (h.earlier fun m hm => hm.not_documentedAt hat)
      | all h => exact .all (h.cons hat)
  | passed hmalformed hdocumented =>
      cases hrest with
      | malformed h => exact .malformed (h.earlier hmalformed)
      | all h => exact .all (h.earlier hmalformed hdocumented)

theorem AllItems.nil (hend : es.length ≤ start) : AllItems extensions es start [] := by
  have hnone : ∀ i, start ≤ i → es[i]? = none := fun i hi => by
    rw [List.getElem?_eq_none_iff]
    omega
  constructor
  · rintro i m hi ⟨e, -, he, -⟩
    simp [hnone i hi] at he
  · refine ⟨[], .nil, by simp, .nil, ?_⟩
    rintro i item hi ⟨e, -, -, -, he, -⟩
    simp [hnone i hi] at he

end

/-- The items of the elements behind a front are collected from its end on. -/
theorem collected_items
    (extensions : List String) {whole front es : List Element} (hwhole : whole = front ++ es) :
    Collected extensions whole front.length
      (items (Flavor.detect (whole.filterMap Element.include?) extensions) front.reverse es) := by
  induction es generalizing front with
  | nil =>
      exact .all (.nil (by simp [hwhole]))
  | cons e es ih =>
      -- The front grows by the element that is passed, so positions stay those of the whole stream.
      have hrest := @ih (front ++ [e]) (by simp [hwhole])
      rw [List.reverse_append, List.length_append] at hrest
      exact hrest.of_step (itemStep hwhole)

theorem collected_all (extensions : List String) (es : List Element) :
    Collected extensions es 0
      (items (Flavor.detect (es.filterMap Element.include?) extensions) [] es) :=
  collected_items extensions (List.nil_append es).symm

theorem FirstMalformed.unique
    {extensions : List String} {es : List Element} {start : Nat} {m m' : Malformed}
    (h : FirstMalformed extensions es start m) (h' : FirstMalformed extensions es start m') :
    m = m' := by
  obtain ⟨i, hi, hat, hbefore⟩ := h
  obtain ⟨i', hi', hat', hbefore'⟩ := h'
  rcases Nat.lt_trichotomy i i' with hlt | rfl | hlt
  · exact absurd hat (hbefore' i hi hlt m)
  · exact hat.unique hat'
  · exact absurd hat' (hbefore i' hi' hlt m')

theorem AllItems.unique
    {extensions : List String} {es : List Element} {start : Nat} {found found' : List Item}
    (h : AllItems extensions es start found) (h' : AllItems extensions es start found') :
    found = found' := by
  obtain ⟨-, order, hsorted, hstart, hitems, hall⟩ := h
  obtain ⟨-, order', hsorted', hstart', hitems', hall'⟩ := h'
  have hdocumented : ∀ {order : List Nat} {found : List Item},
      List.Forall₂ (DocumentedAt extensions es) order found →
        ∀ i ∈ order, ∃ item, DocumentedAt extensions es i item := by
    intro order found hforall
    induction hforall with
    | nil => simp
    | cons hat _ ih => simpa using ⟨⟨_, hat⟩, ih⟩
  -- Both orders are sorted and hold the same positions, so they are one.
  have hmem : ∀ i, i ∈ order ↔ i ∈ order' := by
    intro i
    constructor
    · intro hi
      obtain ⟨item, hat⟩ := hdocumented hitems i hi
      exact hall' i item (hstart i hi) hat
    · intro hi
      obtain ⟨item, hat⟩ := hdocumented hitems' i hi
      exact hall i item (hstart' i hi) hat
  have horder : order = order' :=
    List.Pairwise.eq_of_mem_iff hsorted hsorted' hmem
  subst horder
  exact List.right_unique_forall₂' (fun _ _ _ h h' => h.unique h') hitems hitems'

theorem Collected.unique
    {extensions : List String} {es : List Element} {start : Nat}
    {result result' : Except Malformed (List Item)}
    (h : Collected extensions es start result) (h' : Collected extensions es start result') :
    result = result' := by
  cases h with
  | malformed h =>
      cases h' with
      | malformed h' => rw [h.unique h']
      | all h' =>
          obtain ⟨i, hi, hat, -⟩ := h
          exact absurd hat (h'.readable i _ hi)
  | all h =>
      cases h' with
      | malformed h' =>
          obtain ⟨i, hi, hat, -⟩ := h'
          exact absurd hat (h.readable i _ hi)
      | all h' => rw [h.unique h']

/-! ## The package -/

/-- The first package of the stream stands at a position. -/
def FirstPackage (es : List Element) (i : Nat) (p : Element) : Prop :=
  es[i]? = some p ∧ p.isPackage = true ∧
    ∀ j < i, ∀ e, es[j]? = some e → e.isPackage = false

theorem FirstPackage.cons
    {es : List Element} {e p : Element} {i : Nat} (h : FirstPackage es i p)
    (he : e.isPackage = false) : FirstPackage (e :: es) (i + 1) p := by
  obtain ⟨hat, hpackage, hbefore⟩ := h
  refine ⟨hat, hpackage, fun j hj e' he' => ?_⟩
  cases j with
  | zero =>
      obtain rfl : e = e' := by simpa using he'
      exact he
  | succ j => exact hbefore j (by omega) e' (by simpa using he')

theorem firstPackage?_cases (es : List Element) :
    (firstPackage? es = none ∧ ∀ e ∈ es, e.isPackage = false) ∨
      ∃ i p, firstPackage? es = some (p, es.drop (i + 1)) ∧ FirstPackage es i p := by
  induction es with
  | nil =>
      left
      exact ⟨rfl, by simp⟩
  | cons e es ih =>
      rw [firstPackage?]
      by_cases he : e.isPackage = true
      · right
        exact ⟨0, e, by simp [he], rfl, he, by simp⟩
      · rw [if_neg he]
        rw [Bool.not_eq_true] at he
        rcases ih with ⟨hnone, hall⟩ | ⟨i, p, hsome, hfirst⟩
        · left
          exact ⟨hnone, by simpa [he] using hall⟩
        · right
          exact ⟨i + 1, p, hsome, hfirst.cons he⟩

theorem firstPackage?_of_firstPackage
    {es : List Element} {i : Nat} {p : Element} (h : FirstPackage es i p) :
    firstPackage? es = some (p, es.drop (i + 1)) := by
  obtain ⟨hat, hpackage, hbefore⟩ := h
  rcases firstPackage?_cases es with ⟨-, hall⟩ | ⟨i', p', hsome, hat', hpackage', hbefore'⟩
  · exact absurd ((hall p (List.mem_of_getElem? hat)).symm.trans hpackage) Bool.false_ne_true
  · rcases Nat.lt_trichotomy i i' with hlt | rfl | hlt
    · exact absurd ((hbefore' i hlt p hat).symm.trans hpackage) Bool.false_ne_true
    · rw [hsome, Option.some.inj (hat.symm.trans hat')]
    · exact absurd ((hbefore i' hlt p' hat').symm.trans hpackage') Bool.false_ne_true

/-! ## The module -/

/-- What is extracted from a stream of elements. -/
inductive Extracts (extensions : List String) (path : Path) (es : List Element) :
    Except ExtractError (Extraction Module) → Prop
  | missingPackage (hnone : ∀ e ∈ es, e.isPackage = false) :
      Extracts extensions path es (.error .missingPackage)
  | ignored {i : Nat} {p : Element} (hpackage : FirstPackage es i p)
      (hignore : DocBlock.OpensWithIgnore (packageBlockAt es i) .packageDoc) :
      Extracts extensions path es (.ok (.skipped .isIgnored))
  | malformedPackage {i : Nat} {p : Element} {m : Malformed} (hpackage : FirstPackage es i p)
      (hblock : DocBlock.classify (packageBlockAt es i) .packageDoc = .error m) :
      Extracts extensions path es (.error (.malformed m))
  | malformedItem {i : Nat} {p : Element} {description : String} {test : Option String}
      {m : Malformed} (hpackage : FirstPackage es i p)
      (hblock : DocBlock.classify (packageBlockAt es i) .packageDoc =
        .ok (.documented description test))
      (hfirst : FirstMalformed extensions es 0 m) :
      Extracts extensions path es (.error (.malformed m))
  | found {i : Nat} {p : Element} {description : String} {test : Option String}
      {items : List Item} {flavor : Flavor} (hpackage : FirstPackage es i p)
      (hblock : DocBlock.classify (packageBlockAt es i) .packageDoc =
        .ok (.documented description test))
      (hitems : AllItems extensions es 0 items)
      (hflavor : flavor = .extended ↔ Extended extensions es) :
      Extracts extensions path es (.ok (.found
        { path, package := { statement := p.text, description, line := p.line }, items, flavor }))

section

variable {extensions : List String} {path : Path} {es : List Element} {i : Nat} {p : Element}

theorem ofElements_of_no_package (hnone : ∀ e ∈ es, e.isPackage = false) :
    Module.ofElements extensions path es = .error .missingPackage := by
  rcases firstPackage?_cases es with ⟨hfirst, -⟩ | ⟨i, p, -, hat, hpackage, -⟩
  · rw [Module.ofElements, hfirst]
  · exact absurd ((hnone p (List.mem_of_getElem? hat)).symm.trans hpackage) Bool.false_ne_true

theorem ofElements_of_ignored
    (hfirst : FirstPackage es i p)
    (hblock : DocBlock.classify (packageBlockAt es i) .packageDoc = .ok .ignored) :
    Module.ofElements extensions path es = .ok (.skipped .isIgnored) := by
  rw [Module.ofElements, firstPackage?_of_firstPackage hfirst]
  change packageBlock (es.drop (i + 1)) = _ at hblock
  simp only [packageItem, hblock]
  rfl

theorem ofElements_of_malformed
    {m : Malformed} (hfirst : FirstPackage es i p)
    (hblock : DocBlock.classify (packageBlockAt es i) .packageDoc = .error m) :
    Module.ofElements extensions path es = .error (.malformed m) := by
  rw [Module.ofElements, firstPackage?_of_firstPackage hfirst]
  change packageBlock (es.drop (i + 1)) = _ at hblock
  simp only [packageItem, hblock]
  rfl

/-- Behind a package that is documented, the items decide. -/
theorem ofElements_of_documented
    {description : String} {test : Option String} (hfirst : FirstPackage es i p)
    (hblock : DocBlock.classify (packageBlockAt es i) .packageDoc =
      .ok (.documented description test)) :
    Module.ofElements extensions path es =
      match items (Flavor.detect (es.filterMap Element.include?) extensions) [] es with
      | .error m => .error (.malformed m)
      | .ok items => .ok (.found
          { path
            package := { statement := p.text, description, line := p.line }
            items
            flavor := Flavor.detect (es.filterMap Element.include?) extensions }) := by
  rw [Module.ofElements, firstPackage?_of_firstPackage hfirst]
  change packageBlock (es.drop (i + 1)) = _ at hblock
  simp only [packageItem, hblock]
  rfl

end

theorem extracts_ofElements (extensions : List String) (path : Path) (es : List Element) :
    Extracts extensions path es (Module.ofElements extensions path es) := by
  rcases firstPackage?_cases es with ⟨-, hnone⟩ | ⟨i, p, -, hfirst⟩
  · rw [ofElements_of_no_package hnone]
    exact .missingPackage hnone
  · cases hblock : DocBlock.classify (packageBlockAt es i) .packageDoc with
    | error m =>
        rw [ofElements_of_malformed hfirst hblock]
        exact .malformedPackage hfirst hblock
    | ok block =>
        cases block with
        | ignored =>
            rw [ofElements_of_ignored hfirst hblock]
            exact .ignored hfirst ((DocBlock.classify_eq_ignored_iff _ _).mp hblock)
        | documented description test =>
            rw [ofElements_of_documented hfirst hblock]
            have hitems := collected_all extensions es
            generalize items _ [] es = result at hitems ⊢
            cases hitems with
            | malformed h => exact .malformedItem hfirst hblock h
            | all h => exact .found hfirst hblock h (detect_eq_extended_iff extensions es)

/-- The module of a stream of elements is the one that its positions describe. -/
theorem ofElements_eq_iff_extracts
    (extensions : List String) (path : Path) (es : List Element)
    (result : Except ExtractError (Extraction Module)) :
    Module.ofElements extensions path es = result ↔ Extracts extensions path es result := by
  constructor
  · rintro rfl
    exact extracts_ofElements extensions path es
  · intro h
    cases h with
    | missingPackage hnone =>
        exact ofElements_of_no_package hnone
    | ignored hfirst hignore =>
        exact ofElements_of_ignored hfirst ((DocBlock.classify_eq_ignored_iff _ _).mpr hignore)
    | malformedPackage hfirst hblock =>
        exact ofElements_of_malformed hfirst hblock
    | malformedItem hfirst hblock hmalformed =>
        rw [ofElements_of_documented hfirst hblock,
          (collected_all extensions es).unique (.malformed hmalformed)]
    | found hfirst hblock hall hflavor =>
        rw [ofElements_of_documented hfirst hblock,
          (collected_all extensions es).unique (.all hall),
          eq_of_extended_iff (hflavor.trans (detect_eq_extended_iff extensions es).symm)]

end MarkerDoc.Extract
