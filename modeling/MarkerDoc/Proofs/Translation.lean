import MarkerDoc.Proofs.Restatement
import MarkerDoc.Proofs.Scanner

/-!
# Two sources with the same elements

A source can be changed without a change to its elements: by other line endings, by blank lines, by
other text where nothing is read.  What such changes have in common is a translation: the places of
one source have a counterpart in the other, in the same order and in lines that open alike, and the
texts of statements change in a way that leaves the ends of texts alone.  Tokens that correspond
under a translation are grouped into elements that correspond.
-/

namespace MarkerDoc

open Text

/-- A change of texts that concerns nothing but the inside of line breaks. -/
structure KeepsLines (f : String → String) : Prop where
  inline : ∀ s, '\n' ∉ s.toList → f s = s
  append : ∀ s t, f (s ++ t) = f s ++ f t
  last : ∀ s, (f s).toList.getLast? = s.toList.getLast?
  trimEnd : ∀ s, Text.trimEnd (f s) = f (Text.trimEnd s)
  stripEnd? : ∀ tail s, '\n' ∉ tail.toList →
    Text.stripEnd? tail (f s) = (Text.stripEnd? tail s).map f

theorem keepsLines_id : KeepsLines id :=
  ⟨fun _ _ => rfl, fun _ _ => rfl, fun _ => rfl, fun _ => rfl, fun _ _ _ => by simp⟩

/-- How a source is found in another one.  The end of a comment may be placed by a rule of its own,
since a comment may take in what ends its line. -/
structure Translation (source source' : String) where
  text : String → String
  line : Nat → Nat
  place : Nat → Nat → Prop
  stop : Nat → Nat → Prop
  keepsLines : KeepsLines text
  lt_iff : ∀ {m m' n n'}, place m m' → place n n' → (m < n ↔ m' < n')
  lineAt_eq : ∀ {n n'}, place n n' → lineAt source' n' = line (lineAt source n)
  opensLine_eq : ∀ {n n'}, place n n' → opensLine source' n' = opensLine source n
  stop_max : ∀ {m m' n n'}, stop m m' → stop n n' → stop (max m n) (max m' n')

section

variable {source source' : String} (T : Translation source source')

theorem Translation.place_min
    {m m' n n' : Nat} (hm : T.place m m') (hn : T.place n n') :
    T.place (min m n) (min m' n') := by
  have hlt := T.lt_iff hn hm
  rcases Nat.lt_or_ge n m with h | h
  · have h' := hlt.mp h
    rwa [min_eq_right h.le, min_eq_right h'.le]
  · have h' : m' ≤ n' := Nat.le_of_not_lt fun h' => absurd (hlt.mpr h') (Nat.not_lt.mpr h)
    rwa [min_eq_left h, min_eq_left h']

/-- A token and its counterpart. -/
structure Token.Translates (t t' : Token) : Prop where
  kind : t'.kind = t.kind
  start : T.place t.start t'.start
  stop : T.stop t.stop t'.stop
  plain : t.kind.isComment = false → t'.text = T.text t.text ∧ T.place t.stop t'.stop
  word : t.kind.isWord = true → t'.text = t.text
  comment : t.kind.isComment = true →
    dropEndWhile (· == '\r') t'.text.toList = dropEndWhile (· == '\r') t.text.toList

/-- An element and its counterpart. -/
structure Element.Translates (e e' : Element) : Prop extends
    Element.Restates T.text T.line e e' where
  start : T.place e.span.start e'.span.start
  stop : T.stop e.span.stop e'.span.stop

end

namespace Scan

section

variable {source source' : String} {T : Translation source source'} {t t' : Token}
  {ts ts' : List Token}

/-! ## Measures -/

theorem packageLength_eq (h : List.Forall₂ (Token.Translates T) ts ts') :
    packageLength ts' = packageLength ts := by
  induction h with
  | nil => rfl
  | cons ht _ ih => simp only [packageLength, ht.kind, ih]

theorem signatureLength_eq (h : List.Forall₂ (Token.Translates T) ts ts') (parens : Nat) :
    signatureLength parens ts' = signatureLength parens ts := by
  induction h generalizing parens with
  | nil => rfl
  | @cons t t' ts ts' ht _ ih =>
      have hlast : t.kind = .punctuation ∨ t.kind = .variableName →
          t'.text.toList.getLast? = t.text.toList.getLast? := by
        intro hkind
        have hplain : t.kind.isComment = false := by rcases hkind with h | h <;> rw [h] <;> rfl
        rw [(ht.plain hplain).1, T.keepsLines.last]
      simp only [signatureLength, ht.kind, ih]
      cases hkind : t.kind <;> simp [hkind] at hlast ⊢ <;> simp [hlast]

theorem blockLengthFrom_eq (h : List.Forall₂ (Token.Translates T) ts ts') (depth : Nat) :
    blockLengthFrom depth ts' = blockLengthFrom depth ts := by
  induction h generalizing depth with
  | nil => rfl
  | cons ht _ ih => simp only [blockLengthFrom, ht.kind, ih]

theorem statementExtent_eq
    (h : List.Forall₂ (Token.Translates T) ts ts') (blockEnds : Bool) (depth : Nat) :
    statementExtent blockEnds depth ts' = statementExtent blockEnds depth ts := by
  induction h generalizing depth with
  | nil => rfl
  | cons ht _ ih =>
      unfold statementExtent
      simp only [ht.kind, ih]

/-! ## Texts and kinds -/

theorem joinedFrom_eq
    {last last' : Option Nat} (hlast : Option.Rel T.place last last')
    (h : List.Forall₂ (Token.Translates T) ts ts') :
    joinedFrom last' ts' = T.text (joinedFrom last ts) := by
  have hempty : T.text "" = "" := T.keepsLines.inline "" (by decide)
  have hspace : T.text " " = " " := T.keepsLines.inline " " (by decide)
  induction h generalizing last last' with
  | nil => exact hempty.symm
  | @cons t t' ts ts' ht _ ih =>
      cases hcomment : t.kind.isComment with
      | true =>
          simp only [joinedFrom, ht.kind, hcomment, if_true]
          exact ih hlast
      | false =>
          obtain ⟨htext, hstop⟩ := ht.plain hcomment
          have hrest := ih (.some hstop)
          cases hlast with
          | none =>
              simp [joinedFrom, ht.kind, hcomment, htext, hrest, T.keepsLines.append]
          | some hlast =>
              simp only [joinedFrom, ht.kind, hcomment, htext, hrest, ← T.lt_iff hlast ht.start,
                Bool.false_eq_true, if_false, T.keepsLines.append]
              split_ifs
              · rw [hspace]
              · rw [hempty]

theorem joined_eq (h : List.Forall₂ (Token.Translates T) ts ts') :
    joined ts' = T.text (joined ts) :=
  joinedFrom_eq .none h

theorem takeWhile_kind (h : List.Forall₂ (Token.Translates T) ts ts') (kind : Token.Kind) :
    List.Forall₂ (Token.Translates T) (ts.takeWhile (·.kind != kind))
      (ts'.takeWhile (·.kind != kind)) :=
  forall₂_takeWhile (fun _ _ ht => by rw [ht.kind]) h

theorem getD_stripEnd? {tail : String} (htail : '\n' ∉ tail.toList) (s : String) :
    (stripEnd? tail (T.text s)).getD (T.text s) = T.text ((stripEnd? tail s).getD s) := by
  rw [T.keepsLines.stripEnd? tail s htail]
  cases stripEnd? tail s <;> rfl

theorem modifierSignature_eq (h : List.Forall₂ (Token.Translates T) ts ts') :
    modifierSignature ts' = T.text (modifierSignature ts) := by
  simp only [modifierSignature, joined_eq (takeWhile_kind h .sub), T.keepsLines.trimEnd]
  rw [getD_stripEnd? (by decide), T.keepsLines.trimEnd, getD_stripEnd? (by decide),
    T.keepsLines.trimEnd]

theorem statementKind_eq
    (ht : Token.Translates T t t') (h : List.Forall₂ (Token.Translates T) ts ts') :
    statementKind t' ts' = statementKind t ts := by
  unfold statementKind
  rw [ht.kind]
  split
  · cases h with
    | nil => rfl
    | @cons u u' _ _ hu _ =>
        simp only [hu.kind]
        split
        · next hkind => rw [hu.word (by rw [hkind]; rfl)]
        · rfl
  · next hkind => rw [ht.word (by rw [hkind]; rfl)]
  · rfl

theorem endsWithBlock_eq (ht : Token.Translates T t t') : endsWithBlock t' = endsWithBlock t := by
  unfold endsWithBlock
  rw [ht.kind]
  by_cases hkind : t.kind = .bareWord
  · rw [ht.word (by rw [hkind]; rfl)]
  · rw [beq_eq_false_iff_ne.mpr hkind, Bool.false_and, Bool.false_and]

theorem head?_kind_eq (h : List.Forall₂ (Token.Translates T) ts ts') :
    ts'.head?.map (·.kind) = ts.head?.map (·.kind) := by
  cases h with
  | nil => rfl
  | cons ht _ => simp [ht.kind]

/-! ## One element -/

theorem translates_last
    (ht : Token.Translates T t t') (h : List.Forall₂ (Token.Translates T) ts ts') :
    Token.Translates T (ts.getLast?.getD t) (ts'.getLast?.getD t') := by
  induction h generalizing t t' with
  | nil => exact ht
  | @cons u u' ts ts' hu _ ih =>
      rw [List.getLast?_cons, List.getLast?_cons]
      exact ih hu

theorem translates_element
    {kind : Element.Kind} {text text' : String} (n : Nat) (ht : Token.Translates T t t')
    (h : List.Forall₂ (Token.Translates T) ts ts')
    (hcomment : (element source kind text t ts n).marker? ≠ none → text' = text)
    (hstatement : (element source kind text t ts n).marker? = none → text' = T.text text) :
    Element.Translates T (element source kind text t ts n)
      (element source' kind text' t' ts' n) := by
  have hlast := translates_last ht (List.forall₂_take (n - 1) h)
  exact ⟨⟨rfl, T.lineAt_eq ht.start, hcomment, hstatement⟩, T.place_min ht.start hlast.start,
    T.stop_max ht.stop hlast.stop⟩

theorem translates_statement
    {kind : Element.Kind} {text text' : String} {n : Nat} (ht : Token.Translates T t t')
    (h : List.Forall₂ (Token.Translates T) ts ts')
    (hmarker : (element source kind text t ts n).marker? = none) (htext : text' = T.text text) :
    Element.Translates T (element source kind text t ts n)
      (element source' kind text' t' ts' n) :=
  translates_element n ht h (fun hcomment => absurd hmarker hcomment) fun _ => htext

theorem translates_commentElement
    (ht : Token.Translates T t t') (h : List.Forall₂ (Token.Translates T) ts ts')
    (hcomment : t.kind.isComment = true) (marker : Marker) :
    Element.Translates T (commentElement source marker t ts)
      (commentElement source' marker t' ts') := by
  unfold commentElement
  rw [T.opensLine_eq ht.start, ht.comment hcomment]
  refine translates_element 1 ht h (fun _ => rfl) ?_
  intro hnone
  simp [element, Element.marker?] at hnone

/-- Two steps that use up as much and give corresponding elements, or none on either side. -/
structure StepsTranslate (T : Translation source source') (r r' : Option Element × Nat) : Prop where
  found : List.Forall₂ (Element.Translates T) r.1.toList r'.1.toList
  used : r'.2 = r.2

theorem stepsTranslate_package
    (ht : Token.Translates T t t') (h : List.Forall₂ (Token.Translates T) ts ts') :
    StepsTranslate T
      (some (packageElement source t ts).1, (packageElement source t ts).2)
      (some (packageElement source' t' ts').1, (packageElement source' t' ts').2) := by
  have hlength := packageLength_eq h
  have htext := joined_eq (.cons ht (List.forall₂_take (packageLength ts) h))
  have hnext := head?_kind_eq (List.forall₂_drop (packageLength ts) h)
  constructor
  · refine .cons ?_ .nil
    simp only [packageElement, hlength]
    cases h with
    | nil => exact translates_statement ht .nil rfl htext
    | @cons u u' ts ts' hu h =>
        simp only [hu.kind]
        split
        · next hkind =>
            rw [hu.word (by rw [hkind]; rfl)]
            exact translates_statement ht (.cons hu h) rfl htext
        · exact translates_statement ht (.cons hu h) rfl htext
  · simp only [packageElement, hlength, hnext]

theorem stepsTranslate_routine
    {name name' : Token} (ht : Token.Translates T t t') (hname : Token.Translates T name name')
    (hword : name.kind = .bareWord) (h : List.Forall₂ (Token.Translates T) ts ts') :
    StepsTranslate T
      (some (routineElement source t name ts).1, (routineElement source t name ts).2)
      (some (routineElement source' t' name' ts').1, (routineElement source' t' name' ts').2) := by
  have hlength := signatureLength_eq h 0
  have hafter := List.forall₂_drop (signatureLength 0 ts) h
  have htext := joined_eq (.cons ht (.cons hname (List.forall₂_take (signatureLength 0 ts) h)))
  have hkind : name'.text = name.text := hname.word (by rw [hword]; rfl)
  have hused : (routineElement source' t' name' ts').2 = (routineElement source t name ts).2 := by
    simp only [routineElement, hlength, blockLength, blockLengthFrom_eq hafter,
      head?_kind_eq hafter, hafter.length_eq]
  constructor
  · refine .cons ?_ .nil
    simp only [routineElement] at hused ⊢
    rw [hused, hlength, hkind]
    exact translates_statement ht (.cons hname h) rfl htext
  · exact hused

theorem stepsTranslate_statement
    (ht : Token.Translates T t t') (h : List.Forall₂ (Token.Translates T) ts ts') :
    StepsTranslate T
      (some (statementElement source t ts).1, (statementElement source t ts).2)
      (some (statementElement source' t' ts').1, (statementElement source' t' ts').2) := by
  have hwhole : List.Forall₂ (Token.Translates T) (t :: ts) (t' :: ts') := .cons ht h
  have hends := endsWithBlock_eq ht
  have hextent := statementExtent_eq hwhole (endsWithBlock t) 0
  have hkind := statementKind_eq ht h
  have hshown := List.forall₂_take (statementExtent (endsWithBlock t) 0 (t :: ts)).shown hwhole
  constructor
  · refine .cons ?_ .nil
    simp only [statementElement, hends, hextent, hkind]
    refine translates_statement ht h ?_ ?_
    · exact marker?_eq_none_of_isStatement (isStatement_statementKind t ts)
    · split
      · exact modifierSignature_eq hshown
      · exact joined_eq hshown
  · simp only [statementElement, hends, hextent]

theorem stepsTranslate_step
    (ht : Token.Translates T t t') (h : List.Forall₂ (Token.Translates T) ts ts') :
    StepsTranslate T (step source t ts) (step source' t' ts') := by
  have hkind' := ht.kind
  cases hkind : t.kind with
  | packageDoc | itemDoc | comment =>
      rw [hkind] at hkind'
      simp only [step, hkind, hkind']
      exact ⟨.cons (translates_commentElement ht h (by rw [hkind]; rfl) _) .nil, rfl⟩
  | semicolon =>
      rw [hkind] at hkind'
      simp only [step, hkind, hkind']
      exact ⟨.nil, rfl⟩
  | rightBrace =>
      rw [hkind] at hkind'
      simp only [step, hkind, hkind']
      have hbrace := T.keepsLines.inline "\x7d" (by decide)
      exact ⟨.cons (translates_statement ht h rfl hbrace.symm) .nil, rfl⟩
  | package =>
      rw [hkind] at hkind'
      simp only [step, hkind, hkind']
      exact stepsTranslate_package ht h
  | sub =>
      rw [hkind] at hkind'
      have hstatement := stepsTranslate_statement ht h
      simp only [step, hkind, hkind']
      cases h with
      | nil => exact hstatement
      | cons hname h =>
          simp only [hname.kind]
          split
          · next hword => exact stepsTranslate_routine ht hname hword h
          · exact hstatement
  | use | bareWord | variableName | string | number | leftBrace | punctuation =>
      rw [hkind] at hkind'
      simp only [step, hkind, hkind']
      exact stepsTranslate_statement ht h

/-! ## All elements -/

theorem forall₂_elements (h : List.Forall₂ (Token.Translates T) ts ts') :
    List.Forall₂ (Element.Translates T) (elements source ts) (elements source' ts') := by
  induction ts using elements_induction source generalizing ts' with
  | nil =>
      cases h
      rw [elements_nil, elements_nil]
      exact .nil
  | cons t ts ih =>
      cases h with
      | @cons _ t' _ ts' ht h =>
          obtain ⟨hfound, hused⟩ := stepsTranslate_step ht h
          have hrest := ih (List.forall₂_drop (step source t ts).2 h)
          rw [elements_cons, elements_cons, hused]
          exact List.rel_append hfound hrest

end

end Scan

end MarkerDoc
