import MarkerDoc.Proofs.Scanner

/-!
# The scanner is compositional

The scanner looks past the end of an element in many places: for the name behind `sub` or `use`, for
what closes a declaration, for a brace that belongs to an enclosing block, and the end of the tokens
has its own meaning in each of them.  Cutting the tokens where the loop comes to stand must not be
seen by any of these.  For every measure there is a lemma here that says so: a measure that stays
within the tokens in front of the cut is the same without the tokens behind it.

It follows that a step, and then the loop, is decided by the tokens that it uses up.
-/

namespace MarkerDoc.Scan

/-! ## The parts of an element -/

/-- The kind of a package declaration, by the tokens after its keyword. -/
def packageKind : List Token → Element.Kind
  | t :: _ => if t.kind = .bareWord then .package t.text else .other
  | [] => .other

/-- The tokens that close a package declaration at the head of what is left. -/
def closingLength (after : List Token) : Nat :=
  match after.head?.map Token.kind with
  | some .semicolon | some .leftBrace => 1
  | _ => 0

/-- The tokens of a routine's body at the head of what is left. -/
def bodyLength (after : List Token) : Nat :=
  match after.head?.map Token.kind with
  | some .leftBrace => (blockLength after).getD after.length
  | some .semicolon => 1
  | _ => 0

theorem packageElement_eq (source : String) (t : Token) (rest : List Token) :
    packageElement source t rest =
      (element source (packageKind rest) (joined (t :: rest.take (packageLength rest))) t rest
        (packageLength rest + 1),
        packageLength rest + closingLength (rest.drop (packageLength rest))) :=
  rfl

theorem routineElement_eq (source : String) (t name : Token) (rest : List Token) :
    routineElement source t name rest =
      (element source (.routine name.text)
        (joined (t :: name :: rest.take (signatureLength 0 rest))) t (name :: rest)
        (1 + signatureLength 0 rest + bodyLength (rest.drop (signatureLength 0 rest)) + 1),
        1 + signatureLength 0 rest + bodyLength (rest.drop (signatureLength 0 rest))) :=
  rfl

/-! ## Measures that stay in front of a cut -/

section

variable {source : String} {ts later : List Token}

theorem packageLength_append (h : packageLength (ts ++ later) ≤ ts.length) :
    packageLength (ts ++ later) = packageLength ts := by
  induction ts with
  | nil =>
      simpa [packageLength] using h
  | cons u ts ih =>
      have hnext : packageLength (ts ++ later) + 1 ≤ (u :: ts).length →
          packageLength (ts ++ later) + 1 = packageLength ts + 1 := by
        intro hle
        rw [ih (Nat.le_of_succ_le_succ hle)]
      unfold packageLength at h ⊢
      simp only [List.cons_append] at h ⊢
      cases hkind : u.kind with
      | semicolon | leftBrace | rightBrace | packageDoc | itemDoc | comment => rfl
      | package | sub | use | bareWord | variableName | string | number | punctuation =>
          rw [hkind] at h
          exact hnext h

theorem signatureLength_append
    {parens : Nat} (h : signatureLength parens (ts ++ later) ≤ ts.length) :
    signatureLength parens (ts ++ later) = signatureLength parens ts := by
  induction ts generalizing parens with
  | nil =>
      simpa [signatureLength] using h
  | cons u ts ih =>
      have hnext : ∀ parens, signatureLength parens (ts ++ later) + 1 ≤ (u :: ts).length →
          signatureLength parens (ts ++ later) + 1 = signatureLength parens ts + 1 := by
        intro parens hle
        rw [ih (Nat.le_of_succ_le_succ hle)]
      unfold signatureLength at h ⊢
      simp only [List.cons_append] at h ⊢
      cases hkind : u.kind with
      | semicolon => rfl
      | leftBrace | rightBrace =>
          simp only [hkind] at h ⊢
          split_ifs at h ⊢
          · rfl
          · exact hnext parens h
      | punctuation | variableName =>
          simp only [hkind] at h ⊢
          split at h <;> exact hnext _ h
      | packageDoc | itemDoc | comment | package | sub | use | bareWord | string | number =>
          rw [hkind] at h
          exact hnext parens h

theorem blockLengthFrom_pos
    {depth n : Nat} (h : blockLengthFrom depth ts = some n) : 0 < n := by
  cases ts with
  | nil =>
      simp [blockLengthFrom] at h
  | cons u ts =>
      have hnext : ∀ depth, (blockLengthFrom depth ts).map (· + 1) = some n → 0 < n := by
        intro depth hsome
        obtain ⟨m, -, rfl⟩ := Option.map_eq_some_iff.mp hsome
        exact Nat.succ_pos m
      unfold blockLengthFrom at h
      split at h
      · exact hnext _ h
      · split_ifs at h
        · obtain rfl := Option.some.inj h
          exact Nat.one_pos
        · exact hnext _ h
      · exact hnext _ h

theorem blockLengthFrom_append
    {depth n : Nat} (h : blockLengthFrom depth (ts ++ later) = some n) (hn : n ≤ ts.length) :
    blockLengthFrom depth ts = some n := by
  induction ts generalizing depth n with
  | nil =>
      have hpos := blockLengthFrom_pos h
      simp only [List.length_nil] at hn
      omega
  | cons u ts ih =>
      have hnext : ∀ depth, (blockLengthFrom depth (ts ++ later)).map (· + 1) = some n →
          (blockLengthFrom depth ts).map (· + 1) = some n := by
        intro depth hsome
        obtain ⟨m, hm, rfl⟩ := Option.map_eq_some_iff.mp hsome
        rw [ih hm (Nat.le_of_succ_le_succ hn), Option.map_some]
      simp only [List.cons_append, blockLengthFrom] at h ⊢
      split at h
      · exact hnext _ h
      · split_ifs at h ⊢
        · exact h
        · exact hnext _ h
      · exact hnext _ h

theorem statementExtent_append
    {blockEnds : Bool} {depth : Nat}
    (h : (statementExtent blockEnds depth (ts ++ later)).used ≤ ts.length) :
    statementExtent blockEnds depth (ts ++ later) = statementExtent blockEnds depth ts := by
  induction ts generalizing depth with
  | nil =>
      cases later with
      | nil => rfl
      | cons u later =>
          simp only [List.nil_append, List.length_nil, Nat.le_zero, statementExtent] at h ⊢
          split at h
          · simp [Extent.succ] at h
          · rfl
          · split_ifs at h
            simp [Extent.succ] at h
          · simp at h
          · simp [Extent.succ] at h
  | cons u ts ih =>
      have hnext : ∀ depth,
          (statementExtent blockEnds depth (ts ++ later)).succ.used ≤ (u :: ts).length →
          (statementExtent blockEnds depth (ts ++ later)).succ =
            (statementExtent blockEnds depth ts).succ := by
        intro depth hle
        rw [ih (Nat.le_of_succ_le_succ hle)]
      simp only [List.cons_append, statementExtent] at h ⊢
      split at h
      · exact hnext _ h
      · rfl
      · split_ifs at h ⊢
        · rfl
        · exact hnext _ h
      · rfl
      · exact hnext _ h

/-! ## One element -/

theorem element_append
    (kind : Element.Kind) (text : String) (t : Token) {n : Nat} (hn : n - 1 ≤ ts.length) :
    element source kind text t (ts ++ later) n = element source kind text t ts n := by
  unfold element
  rw [List.take_append_of_le_length hn]

/-- The word behind the keyword belongs to the declaration, so a cut behind the declaration keeps
it. -/
theorem packageKind_append (h : packageLength (ts ++ later) ≤ ts.length) :
    packageKind (ts ++ later) = packageKind ts := by
  cases ts with
  | cons u ts => rfl
  | nil =>
      cases later with
      | nil => rfl
      | cons u later =>
          have hword : u.kind ≠ .bareWord := by
            intro hkind
            simp [packageLength, hkind, Token.Kind.isComment] at h
          simp [packageKind, hword]

theorem closingLength_append (h : closingLength (ts ++ later) ≤ ts.length) :
    closingLength (ts ++ later) = closingLength ts := by
  cases ts with
  | cons u ts => rfl
  | nil => exact Nat.le_zero.mp h

theorem packageElement_used
    {t : Token} (h : (packageElement source t (ts ++ later)).2 ≤ ts.length) :
    packageLength (ts ++ later) ≤ ts.length ∧
      closingLength ((ts ++ later).drop (packageLength (ts ++ later))) ≤
        (ts.drop (packageLength (ts ++ later))).length := by
  rw [packageElement_eq] at h
  rw [List.length_drop]
  omega

theorem packageElement_append
    {t : Token} (h : (packageElement source t (ts ++ later)).2 ≤ ts.length) :
    packageElement source t (ts ++ later) = packageElement source t ts := by
  obtain ⟨hle, hclosing⟩ := packageElement_used h
  have hkind := packageKind_append hle
  have hlength := packageLength_append hle
  rw [hlength] at hle hclosing
  rw [List.drop_append_of_le_length hle] at hclosing
  rw [packageElement_eq, packageElement_eq, hkind, hlength, List.take_append_of_le_length hle,
    List.drop_append_of_le_length hle, closingLength_append hclosing, element_append _ _ _ hle]

/-- A body that closes before the cut closes there; one that runs to the end of the tokens leaves
nothing to cut off. -/
theorem bodyLength_append (h : bodyLength (ts ++ later) ≤ ts.length) :
    bodyLength (ts ++ later) = bodyLength ts := by
  cases ts with
  | nil =>
      exact Nat.le_zero.mp h
  | cons u ts =>
      unfold bodyLength at h ⊢
      simp only [List.cons_append, List.head?_cons, Option.map_some] at h ⊢
      rw [← List.cons_append] at h ⊢
      split at h
      · cases hblock : blockLength (u :: ts ++ later) with
        | some n =>
            rw [hblock, Option.getD_some] at h
            have hcut : blockLength (u :: ts) = some n := blockLengthFrom_append hblock h
            rw [hcut, Option.getD_some, Option.getD_some]
        | none =>
            rw [hblock, Option.getD_none, List.length_append] at h
            obtain rfl : later = [] := List.eq_nil_of_length_eq_zero (by omega)
            rw [List.append_nil] at hblock ⊢
            rw [hblock]
      · rfl
      · rfl

theorem routineElement_append
    (t name : Token) (h : (routineElement source t name (ts ++ later)).2 ≤ ts.length + 1) :
    routineElement source t name (ts ++ later) = routineElement source t name ts := by
  rw [routineElement_eq] at h
  have hle : signatureLength 0 (ts ++ later) ≤ ts.length := by omega
  have hlength := signatureLength_append hle
  rw [hlength] at hle
  simp only [hlength, List.drop_append_of_le_length hle] at h
  have hbody : bodyLength (ts.drop (signatureLength 0 ts) ++ later) =
      bodyLength (ts.drop (signatureLength 0 ts)) := by
    apply bodyLength_append
    rw [List.length_drop]
    omega
  rw [hbody] at h
  rw [routineElement_eq, routineElement_eq, hlength, List.take_append_of_le_length hle,
    List.drop_append_of_le_length hle, hbody, ← List.cons_append,
    element_append _ _ _ (by rw [List.length_cons]; omega)]

theorem statementKind_append
    {t : Token}
    (h : (statementExtent (endsWithBlock t) 0 (t :: ts ++ later)).used ≤ (t :: ts).length) :
    statementKind t (ts ++ later) = statementKind t ts := by
  cases ts with
  | cons u ts => rfl
  | nil =>
      cases later with
      | nil => rfl
      | cons u later =>
          have hword : t.kind = .use → u.kind ≠ .bareWord := by
            intro hfirst hkind
            simp [statementExtent, hfirst, hkind, Extent.succ] at h
          unfold statementKind
          cases hkind : t.kind <;> simp_all

theorem statementElement_append
    {t : Token} (h : (statementElement source t (ts ++ later)).2 ≤ ts.length) :
    statementElement source t (ts ++ later) = statementElement source t ts := by
  have hused : (statementExtent (endsWithBlock t) 0 (t :: ts ++ later)).used ≤
      (t :: ts).length := by
    simp only [statementElement] at h
    rw [List.length_cons, List.cons_append]
    omega
  have hkind := statementKind_append hused
  have hextent := statementExtent_append hused
  have hshown := statementExtent_shown_le (endsWithBlock t) 0 (t :: ts)
  rw [hextent] at hused
  rw [List.length_cons] at hused
  unfold statementElement
  simp only [← List.cons_append, hextent, hkind, List.take_append_of_le_length hshown]
  rw [element_append _ _ _ (by omega)]

theorem step_append
    {t : Token} (h : (step source t (ts ++ later)).2 ≤ ts.length) :
    step source t (ts ++ later) = step source t ts := by
  cases hkind : t.kind with
  | packageDoc | itemDoc | comment =>
      simp only [step, hkind, commentElement]
      rw [element_append _ _ _ (by simp)]
  | semicolon =>
      simp only [step, hkind]
  | rightBrace =>
      simp only [step, hkind]
      rw [element_append _ _ _ (by simp)]
  | package =>
      simp only [step, hkind] at h ⊢
      rw [packageElement_append h]
  | sub =>
      simp only [step, hkind] at h ⊢
      cases ts with
      | cons name ts =>
          simp only [List.cons_append] at h ⊢
          split_ifs at h ⊢
          · rw [routineElement_append t name h]
          · rw [← List.cons_append] at h ⊢
            rw [statementElement_append h]
      | nil =>
          cases later with
          | nil => rfl
          | cons name later =>
              simp only [List.nil_append] at h ⊢
              split_ifs at h ⊢
              · -- A routine takes its name along, so no cut can come between the two.
                rw [routineElement_eq, List.length_nil] at h
                omega
              · rw [← List.nil_append (name :: later)] at h ⊢
                rw [statementElement_append h]
  | use | bareWord | variableName | string | number | leftBrace | punctuation =>
      simp only [step, hkind] at h ⊢
      rw [statementElement_append h]

/-! ## The loop -/

/-- The package blocks that are open behind an element, when `blocks` are open in front of it. -/
def blocksAfter (blocks : Nat) (t : Token) (rest : List Token) : Nat :=
  match t.kind with
  | .package =>
    if (rest.drop (packageLength rest)).head?.map Token.kind = some .leftBrace then blocks + 1
    else blocks
  | .rightBrace => blocks - 1
  | _ => blocks

theorem blocksAfter_append
    {t : Token} (blocks : Nat) (h : (step source t (ts ++ later)).2 ≤ ts.length) :
    blocksAfter blocks t (ts ++ later) = blocksAfter blocks t ts := by
  cases hkind : t.kind with
  | package =>
      simp only [step, hkind] at h
      obtain ⟨hle, hclosing⟩ := packageElement_used h
      have hlength := packageLength_append hle
      simp only [blocksAfter, hkind, hlength]
      rw [hlength] at hle hclosing
      rw [List.drop_append_of_le_length hle] at hclosing ⊢
      cases hafter : ts.drop (packageLength ts) with
      | cons u after => rfl
      | nil =>
          -- A brace behind the cut would have been used up by the declaration.
          have hbrace : later.head?.map Token.kind ≠ some .leftBrace := by
            intro hbrace
            have hend := List.drop_eq_nil_iff.mp hafter
            simp only [hafter, List.nil_append, closingLength, hbrace, List.length_nil] at hclosing
            omega
          rw [List.nil_append, if_neg hbrace, if_neg (by simp)]
  | packageDoc | itemDoc | comment | sub | use | bareWord | variableName | string | number
    | leftBrace | rightBrace | semicolon | punctuation =>
      simp only [blocksAfter, hkind]

/-- The loop of the scanner over some tokens comes to stand at a position, with a number of package
blocks open and some elements given by then. -/
inductive Visits (source : String) (ts : List Token) : Nat → Nat → List Element → Prop
  | start : Visits source ts 0 0 []
  | step {position blocks : Nat} {given : List Element} {t : Token}
      (before : Visits source ts position blocks given) (here : ts[position]? = some t) :
      Visits source ts (position + 1 + (step source t (ts.drop (position + 1))).2)
        (blocksAfter blocks t (ts.drop (position + 1)))
        (given ++ (step source t (ts.drop (position + 1))).1.toList)

section

variable {position blocks : Nat} {given : List Element}

theorem Visits.elements_eq (h : Visits source ts position blocks given) :
    elements source ts = given ++ elements source (ts.drop position) := by
  induction h with
  | start =>
      simp
  | @step position blocks given t before here ih =>
      have hdrop : ts.drop position = t :: ts.drop (position + 1) := by
        obtain ⟨hlt, rfl⟩ := List.getElem?_eq_some_iff.mp here
        exact List.drop_eq_getElem_cons hlt
      rw [ih, hdrop, elements_cons, List.drop_drop, List.append_assoc]

theorem Visits.elements_behind
    {front rest : List Token} {e : Element}
    (h : Visits source ts (position + front.length) blocks (given ++ [e]))
    (here : ts.drop position = front ++ rest) :
    elements source ts = given ++ e :: elements source rest := by
  rw [h.elements_eq, ← List.drop_drop, here, List.drop_left, List.append_assoc,
    List.singleton_append]

/-- A step at a token that neither opens nor closes a package block. -/
theorem Visits.next
    (before : Visits source ts position blocks given) {t : Token} {rest : List Token}
    {e : Element} {used : Nat} (here : ts.drop position = t :: rest)
    (hstep : Scan.step source t rest = (some e, used)) (hpackage : t.kind ≠ .package)
    (hbrace : t.kind ≠ .rightBrace) :
    Visits source ts (position + 1 + used) blocks (given ++ [e]) := by
  have hat : ts[position]? = some t := by
    rw [← List.head?_drop, here, List.head?_cons]
  have hrest : ts.drop (position + 1) = rest := by
    rw [← List.drop_drop, here, List.drop_one, List.tail_cons]
  have hblocks : blocksAfter blocks t rest = blocks := by
    unfold blocksAfter
    split <;> simp_all
  have hnext := before.step hat
  rwa [hrest, hblocks, hstep] at hnext

/-- What the loop does up to a position is decided by the tokens up to there. -/
theorem Visits.of_append
    (h : Visits source (ts ++ later) position blocks given) (hposition : position ≤ ts.length) :
    Visits source ts position blocks given := by
  induction h with
  | start =>
      exact .start
  | @step position blocks given t before here ih =>
      have hle : position + 1 ≤ ts.length := by omega
      rw [List.getElem?_append_left hle] at here
      rw [List.drop_append_of_le_length hle] at hposition ⊢
      have hused : (Scan.step source t (ts.drop (position + 1) ++ later)).2 ≤
          (ts.drop (position + 1)).length := by
        rw [List.length_drop]
        omega
      rw [blocksAfter_append _ hused, step_append hused]
      exact .step (ih (by omega)) here

end

end

/-- Wherever the loop comes to stand between two tokens, the tokens can be cut, however many package
blocks are open there: the elements given by then are those of the tokens in front alone, and all
later ones are those of the tokens behind alone. -/
theorem elements_append_of_visits
    (source : String) (front behind : List Token) (blocks : Nat) (given : List Element)
    (h : Visits source (front ++ behind) front.length blocks given) :
    given = elements source front ∧
      elements source (front ++ behind) = elements source front ++ elements source behind := by
  have hfront := (h.of_append le_rfl).elements_eq
  have hwhole := h.elements_eq
  rw [List.drop_length, elements_nil, List.append_nil] at hfront
  rw [List.drop_left] at hwhole
  rw [hwhole, hfront]
  exact ⟨rfl, rfl⟩

/-- A cut inside an open package block, between `package A {` and `sub f; }`. -/
theorem elements_append_inside_block :
    let source := "package A \x7b sub f; \x7d"
    let front : List Token :=
      [⟨.package, 0, "package"⟩, ⟨.bareWord, 8, "A"⟩, ⟨.leftBrace, 10, "\x7b"⟩]
    let behind : List Token :=
      [⟨.sub, 12, "sub"⟩, ⟨.bareWord, 16, "f"⟩, ⟨.semicolon, 17, ";"⟩, ⟨.rightBrace, 19, "\x7d"⟩]
    Visits source (front ++ behind) front.length 1 [⟨.package "A", "package A", ⟨0, 9⟩, 1⟩] ∧
      elements source (front ++ behind) = elements source front ++ elements source behind := by
  intro source front behind
  have hstep : step source ⟨.package, 0, "package"⟩ ((front ++ behind).drop 1) =
      (some ⟨.package "A", "package A", ⟨0, 9⟩, 1⟩, 2) := by
    decide +kernel
  have hstart : Visits source (front ++ behind) 0 0 [] := .start
  have hvisits : Visits source (front ++ behind) front.length 1
      [⟨.package "A", "package A", ⟨0, 9⟩, 1⟩] := by
    have hnext := hstart.step (t := ⟨.package, 0, "package"⟩) rfl
    rwa [hstep] at hnext
  exact ⟨hvisits, (elements_append_of_visits _ _ _ _ _ hvisits).2⟩

end MarkerDoc.Scan
