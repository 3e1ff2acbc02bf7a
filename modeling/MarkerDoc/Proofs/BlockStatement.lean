import MarkerDoc.Proofs.RoutineHeader

/-!
# Block statements

A statement that opens with a word such as `if` or `while` ends with its first block.  The scanner
looks for the first brace outside all braces, and it does not look for parentheses.  So the first
block is the one behind the condition only if the condition holds no brace of its own, and the
statement gets that far only if the condition holds no semicolon.  A condition of this kind is
called flat.  With any other condition the statement ends inside it, at its first semicolon or
behind its first pair of braces.
-/

namespace MarkerDoc.Scan

/-! ## Flat tokens -/

def isFlat (t : Token) : Bool :=
  !isBrace t && t.kind != .semicolon

theorem isFlat_iff {t : Token} :
    isFlat t = true ↔
      isLeftBrace t = false ∧ isRightBrace t = false ∧ t.kind ≠ .semicolon := by
  simp [isFlat, isBrace, and_assoc]

theorem statementExtent_flat
    (blockEnds : Bool) {front : List Token} (hflat : ∀ t ∈ front, isFlat t = true)
    (rest : List Token) :
    statementExtent blockEnds 0 (front ++ rest) =
      (statementExtent blockEnds 0 rest).behind front.length := by
  induction front with
  | nil =>
      rfl
  | cons t front ih =>
      obtain ⟨ht, hfront⟩ := List.forall_mem_cons.mp hflat
      obtain ⟨hl, hr, hsemicolon⟩ := isFlat_iff.mp ht
      rw [List.cons_append, statementExtent_other _ _ _ hl hr fun _ => hsemicolon, ih hfront,
        Extent.succ_behind, List.length_cons]

/-- A block ends the statement with its last brace. -/
theorem statementExtent_block
    {l r : Token} {body : List Token} (hl : l.kind = .leftBrace)
    (hbody : Balanced isLeftBrace isRightBrace body) (hr : r.kind = .rightBrace)
    (rest : List Token) :
    statementExtent true 0 (l :: (body ++ r :: rest)) = ⟨body.length + 2, body.length + 2⟩ := by
  rw [statementExtent_leftBrace _ _ _ hl, statementExtent_balanced _ hbody,
    statementExtent_rightBrace _ _ _ hr, if_pos (by simp)]
  simp only [Extent.behind, Extent.succ, Extent.mk.injEq]
  omega

/-- What ends a statement with a block: a semicolon, or a balanced pair of braces. -/
inductive EndsStatement : List Token → Nat → Prop
  | semicolon {t : Token} {after : List Token} (ht : t.kind = .semicolon) :
      EndsStatement (t :: after) 1
  | block {l r : Token} {inside after : List Token} (hl : l.kind = .leftBrace)
      (hinside : Balanced isLeftBrace isRightBrace inside) (hr : r.kind = .rightBrace) :
      EndsStatement (l :: (inside ++ r :: after)) (inside.length + 2)

theorem EndsStatement.used_eq
    {ts : List Token} {n : Nat} (h : EndsStatement ts n) (rest : List Token) :
    (statementExtent true 0 (ts ++ rest)).used = n := by
  cases h with
  | semicolon ht =>
      rw [List.cons_append, statementExtent_semicolon _ _ ht]
  | block hl hinside hr =>
      rw [List.cons_append, List.append_assoc, List.cons_append,
        statementExtent_block hl hinside hr]

theorem EndsStatement.le_length {ts : List Token} {n : Nat} (h : EndsStatement ts n) :
    n ≤ ts.length := by
  cases h with
  | semicolon ht =>
      simp
  | block hl hinside hr =>
      simp only [List.length_cons, List.length_append]
      omega

theorem EndsStatement.pos {ts : List Token} {n : Nat} (h : EndsStatement ts n) : 0 < n := by
  cases h <;> omega

/-- Balanced tokens that are not flat end a statement behind a flat front. -/
theorem exists_endsStatement
    {ts : List Token} (h : Balanced isLeftBrace isRightBrace ts)
    (hflat : ¬ ∀ t ∈ ts, isFlat t = true) :
    ∃ front after n, ts = front ++ after ∧ (∀ t ∈ front, isFlat t = true) ∧
      EndsStatement after n := by
  induction h with
  | nil =>
      simp at hflat
  | @plain t ts hopens hcloses hts ih =>
      by_cases ht : t.kind = .semicolon
      · exact ⟨[], t :: ts, 1, rfl, by simp, .semicolon ht⟩
      · have hhead : isFlat t = true := isFlat_iff.mpr ⟨hopens, hcloses, ht⟩
        obtain ⟨front, after, n, rfl, hfront, hends⟩ := ih fun hrest =>
          hflat (List.forall_mem_cons.mpr ⟨hhead, hrest⟩)
        exact ⟨t :: front, after, n, rfl, List.forall_mem_cons.mpr ⟨hhead, hfront⟩, hends⟩
  | @group l r inside ts hl hr hinside hts =>
      exact ⟨[], _, _, rfl, by simp,
        .block (isLeftBrace_iff.mp hl) hinside (isRightBrace_iff.mp hr)⟩

/-! ## Block statements -/

/-- The tokens of a statement with a condition and a block. -/
structure BlockStatement where
  keyword : Token
  leftParen : Token
  condition : List Token
  rightParen : Token
  leftBrace : Token
  body : List Token
  rightBrace : Token
  keyword_kind : keyword.kind = .bareWord
  keyword_text : keyword.text ∈ blockKeywords
  leftParen_is : isLeftParen leftParen = true
  condition_parens : Balanced isLeftParen isRightParen condition
  condition_braces : Balanced isLeftBrace isRightBrace condition
  rightParen_is : isRightParen rightParen = true
  leftBrace_kind : leftBrace.kind = .leftBrace
  body_balanced : Balanced isLeftBrace isRightBrace body
  rightBrace_kind : rightBrace.kind = .rightBrace

namespace BlockStatement

variable {source : String}

def afterKeyword (s : BlockStatement) : List Token :=
  s.leftParen :: (s.condition ++ s.rightParen :: s.leftBrace :: (s.body ++ [s.rightBrace]))

def tokens (s : BlockStatement) : List Token :=
  s.keyword :: s.afterKeyword

/-- The element of a statement that ends with its own block. -/
def element (source : String) (s : BlockStatement) : Element :=
  { kind := .other
    text := joined s.tokens
    span := s.keyword.span.merge s.rightBrace.span
    line := lineAt source s.keyword.start }

def TakenWhole (source : String) (s : BlockStatement) (rest : List Token) : Prop :=
  step source s.keyword (s.afterKeyword ++ rest) = (some (s.element source), s.afterKeyword.length)

theorem isFlat_keyword (s : BlockStatement) : isFlat s.keyword = true := by
  simp [isFlat_iff, isLeftBrace, isRightBrace, s.keyword_kind]

theorem isFlat_of_paren {t : Token} (h : isLeftParen t = true ∨ isRightParen t = true) :
    isFlat t = true := by
  simp [isFlat_iff, isLeftBrace, isRightBrace, kind_of_isParen h]

theorem endsWithBlock_keyword (s : BlockStatement) : endsWithBlock s.keyword = true := by
  simp [endsWithBlock, s.keyword_kind, s.keyword_text]

/-- No word that opens a block statement declares anything. -/
theorem statementKind_keyword (s : BlockStatement) (rest : List Token) :
    statementKind s.keyword rest = .other := by
  have hwords : ∀ word ∈ blockKeywords,
      word ≠ attributeKeyword ∧ word ∉ modifierKeywords := by
    decide
  obtain ⟨hattribute, hmodifier⟩ := hwords _ s.keyword_text
  simp only [statementKind, s.keyword_kind]
  rw [if_neg hattribute, if_neg (by simpa using hmodifier)]

/-- The element of a block statement, with the measures of its tokens. -/
theorem step_eq (s : BlockStatement) (source : String) (rest : List Token) :
    step source s.keyword rest =
      let extent := statementExtent true 0 (s.keyword :: rest)
      (some (Scan.element source .other (joined ((s.keyword :: rest).take extent.shown)) s.keyword
        rest (max extent.used 1)), max extent.used 1 - 1) := by
  simp only [step, s.keyword_kind, statementElement, s.endsWithBlock_keyword,
    s.statementKind_keyword, reduceCtorEq, if_false]

theorem takenWhole_of_flat
    (s : BlockStatement) (hflat : ∀ t ∈ s.condition, isFlat t = true) (rest : List Token) :
    s.TakenWhole source rest := by
  have hsplit : s.keyword :: (s.afterKeyword ++ rest) =
      (s.keyword :: s.leftParen :: (s.condition ++ [s.rightParen])) ++
        s.leftBrace :: (s.body ++ s.rightBrace :: rest) := by
    simp [afterKeyword]
  have hfront : ∀ t ∈ s.keyword :: s.leftParen :: (s.condition ++ [s.rightParen]),
      isFlat t = true := by
    simp only [List.forall_mem_cons, List.forall_mem_append]
    exact ⟨s.isFlat_keyword, isFlat_of_paren (.inl s.leftParen_is), hflat,
      isFlat_of_paren (.inr s.rightParen_is), by simp⟩
  have hextent : statementExtent true 0 (s.keyword :: (s.afterKeyword ++ rest)) =
      ⟨s.tokens.length, s.tokens.length⟩ := by
    rw [hsplit, statementExtent_flat _ hfront,
      statementExtent_block s.leftBrace_kind s.body_balanced s.rightBrace_kind]
    simp only [Extent.behind, tokens, afterKeyword, List.length_cons, List.length_append,
      List.length_nil, Extent.mk.injEq]
    omega
  have hlast : s.afterKeyword.getLast? = some s.rightBrace := by
    simp [afterKeyword, List.getLast?_cons, List.getLast?_append]
  have hlength : max s.tokens.length 1 = s.afterKeyword.length + 1 := by
    simp [tokens]
  have htake : (s.keyword :: (s.afterKeyword ++ rest)).take s.tokens.length = s.tokens :=
    List.take_left
  rw [TakenWhole, step_eq]
  simp only [hextent, hlength, htake, Nat.add_sub_cancel]
  simp only [Scan.element, Nat.add_sub_cancel, List.take_left, hlast]
  rfl

/-- With a condition that is not flat the statement ends inside the condition. -/
theorem exists_step_of_not_flat
    (s : BlockStatement) (hflat : ¬ ∀ t ∈ s.condition, isFlat t = true) (rest : List Token) :
    ∃ n, 0 < n ∧ n ≤ s.condition.length ∧ ∃ e, e.kind = .other ∧
      step source s.keyword (s.afterKeyword ++ rest) = (some e, n + 1) := by
  obtain ⟨front, after, n, hcondition, hfront, hends⟩ :=
    exists_endsStatement s.condition_braces hflat
  have hsplit : s.keyword :: (s.afterKeyword ++ rest) =
      (s.keyword :: s.leftParen :: front) ++
        (after ++ s.rightParen :: s.leftBrace :: (s.body ++ s.rightBrace :: rest)) := by
    simp [afterKeyword, hcondition]
  have hhead : ∀ t ∈ s.keyword :: s.leftParen :: front, isFlat t = true := by
    simp only [List.forall_mem_cons]
    exact ⟨s.isFlat_keyword, isFlat_of_paren (.inl s.leftParen_is), hfront⟩
  have hused : (statementExtent true 0 (s.keyword :: (s.afterKeyword ++ rest))).used =
      front.length + n + 2 := by
    rw [hsplit, statementExtent_flat _ hhead, Extent.behind, hends.used_eq]
    simp only [List.length_cons]
    omega
  have hpos := hends.pos
  have hle := hends.le_length
  have hstep := s.step_eq source (s.afterKeyword ++ rest)
  simp only [hused, Nat.max_eq_left (Nat.succ_pos _)] at hstep
  refine ⟨front.length + n, by omega, ?_, _, ?_, hstep⟩
  · rw [hcondition, List.length_append]
    omega
  · rfl

theorem takenWhole_iff (s : BlockStatement) (rest : List Token) :
    s.TakenWhole source rest ↔ ∀ t ∈ s.condition, isFlat t = true := by
  constructor
  · intro hwhole
    by_contra hflat
    obtain ⟨n, -, hn, e, -, hstep⟩ := s.exists_step_of_not_flat hflat rest
    have hused : s.afterKeyword.length = n + 1 :=
      (Prod.mk.inj (hwhole.symm.trans hstep)).2
    simp only [afterKeyword, List.length_cons, List.length_append] at hused
    omega
  · intro hflat
    exact s.takenWhole_of_flat hflat rest

theorem visits_of_step
    {ts rest : List Token} {s : BlockStatement} {position blocks n : Nat} {given : List Element}
    {e : Element} (before : Visits source ts position blocks given)
    (here : ts.drop position = s.tokens ++ rest)
    (hstep : step source s.keyword (s.afterKeyword ++ rest) = (some e, n)) :
    Visits source ts (position + (n + 1)) blocks (given ++ [e]) := by
  rw [Nat.add_comm n, ← Nat.add_assoc]
  exact before.next here hstep (by simp [s.keyword_kind]) (by simp [s.keyword_kind])

end BlockStatement

/-- Documentation in front of a routine without a signature is read line by line, and then the
routine is taken whole. -/
theorem elements_documented
    (source : String) {docs : List Token} (hdocs : ∀ t ∈ docs, t.kind = .itemDoc)
    (r : RoutineTokens) (hsignature : r.signature = []) (later : List Token) :
    elements source (docs ++ (r.tokens ++ later)) =
      docs.map (fun t => commentElement source .itemDoc t []) ++
        r.element source :: elements source later := by
  induction docs with
  | nil =>
      have hcloses : ClosesBeforeBody 0 r.signature := by
        rw [hsignature]
        exact ⟨by simp, by simp, rfl⟩
      exact r.elements_of_takenWhole (r.takenWhole_of_closes source later hcloses)
  | cons t docs ih =>
      obtain ⟨ht, hrest⟩ := List.forall_mem_cons.mp hdocs
      have hstep : ∀ rest, step source t rest =
          (some (commentElement source .itemDoc t []), 0) := by
        intro rest
        simp [step, ht, commentElement, element]
      rw [List.cons_append, elements_cons, hstep, List.drop_zero, ih hrest]
      rfl

/-- A block statement at the head of what the loop has left is one element, which ends with the
brace that closes its own block, exactly when its condition is flat.  Then the loop goes on behind
that brace as if nothing stood in front.  Otherwise it goes on inside the condition. -/
theorem blockStatement_ends_with_own_block_iff
    (source : String) (ts : List Token) (s : BlockStatement) (rest : List Token)
    (position blocks : Nat) (given : List Element)
    (before : Visits source ts position blocks given)
    (here : ts.drop position = s.tokens ++ rest) :
    (s.TakenWhole source rest ↔ ∀ t ∈ s.condition, isFlat t = true) ∧
      ((∀ t ∈ s.condition, isFlat t = true) →
        Visits source ts (position + s.tokens.length) blocks (given ++ [s.element source]) ∧
        elements source ts = given ++ s.element source :: elements source rest ∧
        ∀ docs (r : RoutineTokens) later, rest = docs ++ (r.tokens ++ later) →
          (∀ t ∈ docs, t.kind = .itemDoc) → r.signature = [] →
          elements source rest =
            docs.map (fun t => commentElement source .itemDoc t []) ++
              r.element source :: elements source later) ∧
      ((∃ t ∈ s.condition, isFlat t = false) →
        ∃ n, 0 < n ∧ n ≤ s.condition.length ∧ ∃ e, e.kind = .other ∧
          Visits source ts (position + (n + 2)) blocks (given ++ [e])) := by
  refine ⟨s.takenWhole_iff rest, ?_, ?_⟩
  · intro hflat
    have hvisits : Visits source ts (position + s.tokens.length) blocks
        (given ++ [s.element source]) :=
      BlockStatement.visits_of_step before here (s.takenWhole_of_flat hflat rest)
    refine ⟨hvisits, hvisits.elements_behind here, ?_⟩
    rintro docs r later rfl hdocs hsignature
    exact elements_documented source hdocs r hsignature later
  · rintro ⟨t, ht, hflat⟩
    have hnot : ¬ ∀ t ∈ s.condition, isFlat t = true := by
      intro hall
      exact Bool.false_ne_true (hflat.symm.trans (hall t ht))
    obtain ⟨n, hpos, hn, e, he, hstep⟩ := s.exists_step_of_not_flat hnot rest
    exact ⟨n, hpos, hn, e, he, BlockStatement.visits_of_step before here hstep⟩

/-- Parentheses in the condition and a subscript in the block, with a documented routine behind. -/
theorem blockStatement_ends_with_own_block_unless :
    let source := "unless (ok($x)) \x7b $h\x7ba\x7d; \x7d\n### doc\nsub g \x7b\x7d\n"
    ∃ (s : BlockStatement) (rest : List Token), Token.lex source = s.tokens ++ rest ∧
      Visits source (Token.lex source) 0 0 [] ∧ (∀ t ∈ s.condition, isFlat t = true) ∧
      Element.scan source = s.element source :: elements source rest := by
  intro source
  let l : Token := ⟨.punctuation, 10, "("⟩
  let r : Token := ⟨.punctuation, 13, ")"⟩
  let opening : Token := ⟨.leftBrace, 20, "\x7b"⟩
  let closing : Token := ⟨.rightBrace, 22, "\x7d"⟩
  let s : BlockStatement :=
    { keyword := ⟨.bareWord, 0, "unless"⟩
      leftParen := ⟨.punctuation, 7, "("⟩
      condition := ⟨.bareWord, 8, "ok"⟩ :: l :: ([⟨.variableName, 11, "$x"⟩] ++ r :: [])
      rightParen := ⟨.punctuation, 14, ")"⟩
      leftBrace := ⟨.leftBrace, 16, "\x7b"⟩
      body := ⟨.variableName, 18, "$h"⟩ :: opening ::
        ([⟨.bareWord, 21, "a"⟩] ++ closing :: [⟨.semicolon, 23, ";"⟩])
      rightBrace := ⟨.rightBrace, 25, "\x7d"⟩
      keyword_kind := rfl
      keyword_text := by decide
      leftParen_is := rfl
      condition_parens := .plain rfl rfl (.group rfl rfl (.plain rfl rfl .nil) .nil)
      condition_braces :=
        .plain rfl rfl (.plain rfl rfl (.plain rfl rfl (.plain rfl rfl .nil)))
      rightParen_is := rfl
      leftBrace_kind := rfl
      body_balanced :=
        .plain rfl rfl (.group rfl rfl (.plain rfl rfl .nil) (.plain rfl rfl .nil))
      rightBrace_kind := rfl }
  have hlex : Token.lex source = s.tokens ++
      [⟨.itemDoc, 27, "### doc"⟩, ⟨.sub, 35, "sub"⟩, ⟨.bareWord, 39, "g"⟩,
        ⟨.leftBrace, 41, "\x7b"⟩, ⟨.rightBrace, 42, "\x7d"⟩] := by
    decide +kernel
  have hflat : ∀ t ∈ s.condition, isFlat t = true := by
    decide
  refine ⟨s, _, hlex, .start, hflat, ?_⟩
  exact ((blockStatement_ends_with_own_block_iff source _ s _ 0 0 [] .start hlex).2.1 hflat).2.1

/-- A subscript in the condition is taken for the block, and the documented routine behind the
statement is lost. -/
theorem blockStatement_ends_inside_condition :
    let source := "if ($h\x7bx\x7d) \x7b run() \x7d\n### doc\nsub g \x7b\x7d\n"
    ∃ (s : BlockStatement) (rest : List Token), Token.lex source = s.tokens ++ rest ∧
      ¬ s.TakenWhole source rest ∧
      Element.scan source =
        [⟨.other, "if ($h\x7bx\x7d", ⟨0, 9⟩, 1⟩,
          ⟨.other, ") \x7b run() \x7d sub g \x7b\x7d", ⟨9, 37⟩, 1⟩] := by
  intro source
  let l : Token := ⟨.leftBrace, 6, "\x7b"⟩
  let r : Token := ⟨.rightBrace, 8, "\x7d"⟩
  let s : BlockStatement :=
    { keyword := ⟨.bareWord, 0, "if"⟩
      leftParen := ⟨.punctuation, 3, "("⟩
      condition := ⟨.variableName, 4, "$h"⟩ :: l :: ([⟨.bareWord, 7, "x"⟩] ++ r :: [])
      rightParen := ⟨.punctuation, 9, ")"⟩
      leftBrace := ⟨.leftBrace, 11, "\x7b"⟩
      body := [⟨.bareWord, 13, "run"⟩, ⟨.punctuation, 16, "("⟩, ⟨.punctuation, 17, ")"⟩]
      rightBrace := ⟨.rightBrace, 19, "\x7d"⟩
      keyword_kind := rfl
      keyword_text := by decide
      leftParen_is := rfl
      condition_parens :=
        .plain rfl rfl (.plain rfl rfl (.plain rfl rfl (.plain rfl rfl .nil)))
      condition_braces := .plain rfl rfl (.group rfl rfl (.plain rfl rfl .nil) .nil)
      rightParen_is := rfl
      leftBrace_kind := rfl
      body_balanced := .plain rfl rfl (.plain rfl rfl (.plain rfl rfl .nil))
      rightBrace_kind := rfl }
  refine ⟨s, [⟨.itemDoc, 21, "### doc"⟩, ⟨.sub, 29, "sub"⟩, ⟨.bareWord, 33, "g"⟩,
    ⟨.leftBrace, 35, "\x7b"⟩, ⟨.rightBrace, 36, "\x7d"⟩], ?_, ?_, ?_⟩
  · decide +kernel
  · rw [s.takenWhole_iff]
    decide
  · decide +kernel

end MarkerDoc.Scan
