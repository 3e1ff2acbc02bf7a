import MarkerDoc.Proofs.Balance

/-!
# The header of a routine

The signature of a routine is read token by token, with a count of the parentheses that are open.
A token counts as a parenthesis if it ends in one, since the lexer takes `$)` for a variable.  A
semicolon ends the signature wherever it stands, and a brace ends it outside all parentheses.  So a
routine is taken as one element exactly when its signature holds no semicolon, opens a parenthesis
before every brace, and has closed all of them where the body begins.
-/

namespace MarkerDoc.Scan

/-! ## Counting parentheses -/

def opensParen (t : Token) : Bool :=
  (t.kind == .punctuation || t.kind == .variableName) && t.text.toList.getLast? == some '('

def closesParen (t : Token) : Bool :=
  (t.kind == .punctuation || t.kind == .variableName) && t.text.toList.getLast? == some ')'

theorem opensParen_of_isLeftParen {t : Token} (h : isLeftParen t = true) :
    opensParen t = true := by
  simp only [isLeftParen, Bool.and_eq_true, beq_iff_eq] at h
  simp [opensParen, h.1, h.2]

theorem closesParen_of_isRightParen {t : Token} (h : isRightParen t = true) :
    closesParen t = true := by
  simp only [isRightParen, Bool.and_eq_true, beq_iff_eq] at h
  simp [closesParen, h.1, h.2]

/-- The parentheses that are open behind a token. -/
def parensAfter (parens : Nat) (t : Token) : Nat :=
  if opensParen t then parens + 1
  else if closesParen t then parens - 1
  else parens

theorem parensAfter_of_opensParen {t : Token} (h : opensParen t = true) (parens : Nat) :
    parensAfter parens t = parens + 1 := by
  simp [parensAfter, h]

theorem parensAfter_of_closesParen {t : Token} (h : closesParen t = true) (parens : Nat) :
    parensAfter (parens + 1) t = parens := by
  have hopens : opensParen t = false := by
    simp only [closesParen, Bool.and_eq_true, beq_iff_eq] at h
    simp [opensParen, h.2]
  simp [parensAfter, hopens, h]

def isBrace (t : Token) : Bool :=
  isLeftBrace t || isRightBrace t

theorem isBrace_of_leftBrace {t : Token} (h : t.kind = .leftBrace) : isBrace t = true := by
  simp [isBrace, isLeftBrace, h]

/-- The recursion of `signatureLength`, with what ends a signature in one condition. -/
theorem signatureLength_cons (parens : Nat) (t : Token) (ts : List Token) :
    signatureLength parens (t :: ts) =
      if t.kind = .semicolon ∨ parens = 0 ∧ isBrace t then 0
      else signatureLength (parensAfter parens t) ts + 1 := by
  have hcount : t.kind ≠ .punctuation → t.kind ≠ .variableName → parensAfter parens t = parens := by
    intro hpunctuation hvariable
    simp [parensAfter, opensParen, closesParen, hpunctuation, hvariable]
  rw [signatureLength]
  cases hkind : t.kind with
  | semicolon =>
      simp
  | leftBrace | rightBrace =>
      rw [hcount (by simp [hkind]) (by simp [hkind])]
      simp [isBrace, isLeftBrace, isRightBrace, hkind]
  | punctuation | variableName =>
      have hbrace : isBrace t = false := by
        simp [isBrace, isLeftBrace, isRightBrace, hkind]
      simp only [hbrace, reduceCtorEq, Bool.false_eq_true, and_false, or_false, if_false,
        parensAfter, opensParen, closesParen, hkind]
      split <;> simp_all
  | packageDoc | itemDoc | comment | package | sub | use | bareWord | string | number =>
      rw [hcount (by simp [hkind]) (by simp [hkind])]
      simp [isBrace, isLeftBrace, isRightBrace, hkind]

/-- A signature that the scanner reads to its end and no further. -/
structure ClosesBeforeBody (parens : Nat) (signature : List Token) : Prop where
  semicolon : ∀ t ∈ signature, t.kind ≠ .semicolon
  brace : ∀ front t after, signature = front ++ t :: after → isBrace t = true →
    0 < front.foldl parensAfter parens
  closed : signature.foldl parensAfter parens = 0

theorem closesBeforeBody_cons_iff
    {parens : Nat} {t : Token} {ts : List Token} :
    ClosesBeforeBody parens (t :: ts) ↔
      ¬ (t.kind = .semicolon ∨ parens = 0 ∧ isBrace t) ∧
        ClosesBeforeBody (parensAfter parens t) ts := by
  constructor
  · rintro ⟨hsemicolon, hbrace, hclosed⟩
    refine ⟨?_, fun u hu => hsemicolon u (List.mem_cons_of_mem _ hu), ?_, hclosed⟩
    · rintro (hkind | ⟨rfl, hbraced⟩)
      · exact hsemicolon t List.mem_cons_self hkind
      · exact absurd (hbrace [] t ts rfl hbraced) (lt_irrefl 0)
    · rintro front u after rfl hbraced
      exact hbrace (t :: front) u after rfl hbraced
  · rintro ⟨hhead, hsemicolon, hbrace, hclosed⟩
    rw [not_or, not_and] at hhead
    refine ⟨List.forall_mem_cons.mpr ⟨hhead.1, hsemicolon⟩, ?_, hclosed⟩
    rintro (_ | ⟨v, front⟩) u after hsplit hbraced
    · obtain ⟨rfl, -⟩ := List.cons.inj hsplit
      exact Nat.pos_of_ne_zero fun hzero => hhead.2 hzero hbraced
    · obtain ⟨rfl, rfl⟩ := List.cons.inj hsplit
      exact hbrace front u after rfl hbraced

/-- A signature in front of a body is measured exactly when it closes before the body. -/
theorem signatureLength_eq_iff
    {l : Token} (hl : l.kind = .leftBrace) (parens : Nat) (signature rest : List Token) :
    signatureLength parens (signature ++ l :: rest) = signature.length ↔
      ClosesBeforeBody parens signature := by
  induction signature generalizing parens with
  | nil =>
      rw [List.nil_append, signatureLength_cons]
      have hbrace := isBrace_of_leftBrace hl
      constructor
      · intro hlength
        refine ⟨by simp, by simp, ?_⟩
        by_contra hopen
        simp [hl, hbrace, show parens ≠ 0 from hopen] at hlength
      · intro hcloses
        have hzero : parens = 0 := hcloses.closed
        simp [hbrace, hzero]
  | cons t signature ih =>
      rw [closesBeforeBody_cons_iff, List.cons_append, signatureLength_cons, List.length_cons]
      split_ifs with hends
      · simp [hends]
      · simp [hends, ih]

/-- Where the reading of a signature stops there is a semicolon or a brace. -/
theorem signatureLength_stops
    (parens : Nat) (ts : List Token) {t : Token}
    (h : ts[signatureLength parens ts]? = some t) : t.kind = .semicolon ∨ isBrace t = true := by
  induction ts generalizing parens with
  | nil =>
      simp at h
  | cons u ts ih =>
      rw [signatureLength_cons] at h
      split_ifs at h with hends
      · obtain rfl : u = t := by simpa using h
        exact hends.imp_right And.right
      · exact ih _ (by simpa using h)

/-! ## Signatures in parentheses -/

/-- Behind an open parenthesis only a semicolon ends a signature. -/
theorem closesBeforeBody_succ_cons_iff
    {parens : Nat} {t : Token} {ts : List Token} (ht : t.kind ≠ .semicolon) :
    ClosesBeforeBody (parens + 1) (t :: ts) ↔
      ClosesBeforeBody (parensAfter (parens + 1) t) ts := by
  simp [closesBeforeBody_cons_iff, ht]

theorem closesBeforeBody_open_iff {l : Token} {ts : List Token} (hl : isLeftParen l = true) :
    ClosesBeforeBody 0 (l :: ts) ↔ ClosesBeforeBody 1 ts := by
  have hkind := kind_of_isParen (.inl hl)
  rw [closesBeforeBody_cons_iff, parensAfter_of_opensParen (opensParen_of_isLeftParen hl)]
  simp [isBrace, isLeftBrace, isRightBrace, hkind]

theorem closesBeforeBody_close {r : Token} (h : closesParen r = true) :
    ClosesBeforeBody 1 [r] := by
  have hkind : r.kind ≠ .semicolon := by
    intro hkind
    simp [closesParen, hkind] at h
  rw [closesBeforeBody_succ_cons_iff hkind, parensAfter_of_closesParen h]
  exact ⟨by simp, by simp, rfl⟩

/-- Balanced tokens inside parentheses do not end a signature, braces among them included. -/
theorem closesBeforeBody_balanced_iff
    {ts : List Token} (h : Balanced opensParen closesParen ts)
    (hsemicolon : ∀ t ∈ ts, t.kind ≠ .semicolon) (parens : Nat) (rest : List Token) :
    ClosesBeforeBody (parens + 1) (ts ++ rest) ↔ ClosesBeforeBody (parens + 1) rest := by
  induction h generalizing parens rest with
  | nil =>
      rfl
  | @plain t ts hopens hcloses hts ih =>
      obtain ⟨ht, hrest⟩ := List.forall_mem_cons.mp hsemicolon
      have hcount : parensAfter (parens + 1) t = parens + 1 := by
        simp [parensAfter, hopens, hcloses]
      rw [List.cons_append, closesBeforeBody_succ_cons_iff ht, hcount, ih hrest]
  | @group l r inside ts hl hr hinside hts ihinside ihts =>
      obtain ⟨hleft, htail⟩ := List.forall_mem_cons.mp hsemicolon
      obtain ⟨hinner, hright⟩ := List.forall_mem_append.mp htail
      obtain ⟨hclose, hlater⟩ := List.forall_mem_cons.mp hright
      rw [List.cons_append, List.append_assoc, List.cons_append,
        closesBeforeBody_succ_cons_iff hleft, parensAfter_of_opensParen hl, ihinside hinner,
        closesBeforeBody_succ_cons_iff hclose, parensAfter_of_closesParen hr, ihts hlater]

/-- A signature in parentheses: balanced in parentheses and in braces, and without a semicolon. -/
structure IsSignature (signature : List Token) : Prop where
  parenthesized : ∃ l inside r, signature = l :: (inside ++ [r]) ∧ isLeftParen l = true ∧
    isRightParen r = true ∧ Balanced isLeftParen isRightParen inside ∧
    Balanced isLeftBrace isRightBrace inside
  semicolon : ∀ t ∈ signature, t.kind ≠ .semicolon

/-- Nothing among the tokens but a parenthesis counts as one.  What else could count is one of the
variables `$(` and `$)`. -/
def OnlyParens (ts : List Token) : Prop :=
  ∀ t ∈ ts, opensParen t = isLeftParen t ∧ closesParen t = isRightParen t

theorem IsSignature.closesBeforeBody
    {signature : List Token} (h : IsSignature signature) (honly : OnlyParens signature) :
    ClosesBeforeBody 0 signature := by
  obtain ⟨⟨l, inside, r, rfl, hl, hr, hparens, -⟩, hsemicolon⟩ := h
  have hinner : ∀ t ∈ inside, t.kind ≠ .semicolon := fun t ht => hsemicolon t (by simp [ht])
  have hbalanced : Balanced opensParen closesParen inside :=
    hparens.congr fun t ht => honly t (by simp [ht])
  rw [closesBeforeBody_open_iff hl, closesBeforeBody_balanced_iff hbalanced hinner]
  exact closesBeforeBody_close (closesParen_of_isRightParen hr)

/-! ## Texts of different lengths -/

/-- A token more makes another text. -/
theorem joinedFrom_append_ne
    {t : Token} (hcomment : t.kind.isComment = false) (hne : t.text ≠ "") (last : Option Nat)
    (front after : List Token) :
    joinedFrom last (front ++ t :: after) ≠ joinedFrom last front := by
  induction front generalizing last with
  | nil =>
      intro heq
      have hempty : t.text = "" := by
        rw [List.nil_append] at heq
        simp only [joinedFrom, hcomment, Bool.false_eq_true, if_false] at heq
        simp only [String.append_eq_empty_iff] at heq
        exact heq.1.2
      exact hne hempty
  | cons u front ih =>
      intro heq
      rw [List.cons_append] at heq
      simp only [joinedFrom] at heq
      split_ifs at heq
      · exact ih _ heq
      · exact ih _ (String.append_right_inj _ |>.mp heq)

/-! ## Routines -/

/-- The tokens of a routine with a body. -/
structure RoutineTokens where
  keyword : Token
  name : Token
  signature : List Token
  leftBrace : Token
  body : List Token
  rightBrace : Token
  keyword_kind : keyword.kind = .sub
  name_kind : name.kind = .bareWord
  leftBrace_kind : leftBrace.kind = .leftBrace
  body_balanced : Balanced isLeftBrace isRightBrace body
  rightBrace_kind : rightBrace.kind = .rightBrace

namespace RoutineTokens

def afterName (r : RoutineTokens) : List Token :=
  r.signature ++ r.leftBrace :: (r.body ++ [r.rightBrace])

theorem afterName_append (r : RoutineTokens) (rest : List Token) :
    r.afterName ++ rest =
      r.signature ++ r.leftBrace :: (r.body ++ r.rightBrace :: rest) := by
  simp [afterName]

def tokens (r : RoutineTokens) : List Token :=
  r.keyword :: r.name :: r.afterName

/-- The element of a routine that is taken whole: its text ends before the body, and its span ends
with the brace that closes the body. -/
def element (source : String) (r : RoutineTokens) : Element :=
  { kind := .routine r.name.text
    text := joined (r.keyword :: r.name :: r.signature)
    span := r.keyword.span.merge r.rightBrace.span
    line := lineAt source r.keyword.start }

/-- The scanner makes one element of the routine and goes on behind it. -/
def TakenWhole (source : String) (r : RoutineTokens) (rest : List Token) : Prop :=
  step source r.keyword (r.name :: (r.afterName ++ rest)) =
    (some (r.element source), r.afterName.length + 1)

theorem step_eq (source : String) (r : RoutineTokens) (rest : List Token) :
    step source r.keyword (r.name :: rest) =
      (some (routineElement source r.keyword r.name rest).1,
        (routineElement source r.keyword r.name rest).2) := by
  simp only [step, r.keyword_kind, r.name_kind, if_true]

theorem takenWhole_of_closes
    (source : String) (r : RoutineTokens) (rest : List Token)
    (h : ClosesBeforeBody 0 r.signature) : r.TakenWhole source rest := by
  have hlength : signatureLength 0 (r.afterName ++ rest) = r.signature.length := by
    rw [afterName_append]
    exact (signatureLength_eq_iff r.leftBrace_kind 0 _ _).mpr h
  have hbody : bodyLength (r.leftBrace :: (r.body ++ r.rightBrace :: rest)) =
      r.body.length + 2 := by
    simp only [bodyLength, List.head?_cons, Option.map_some, r.leftBrace_kind]
    rw [blockLength_balanced r.leftBrace_kind r.body_balanced r.rightBrace_kind,
      Option.getD_some]
  have hused : 1 + r.signature.length + (r.body.length + 2) = r.afterName.length + 1 := by
    simp only [afterName, List.length_append, List.length_cons, List.length_nil]
    omega
  rw [TakenWhole, step_eq, routineElement_eq, hlength, afterName_append, List.take_left,
    List.drop_left, hbody, hused, ← afterName_append]
  simp only [Scan.element, Nat.add_sub_cancel, List.take_succ_cons, List.take_left]
  have hlast : (r.name :: r.afterName).getLast? = some r.rightBrace := by
    simp [afterName, List.getLast?_cons, List.getLast?_append]
  rw [hlast]
  rfl

theorem elements_of_takenWhole
    {source : String} {r : RoutineTokens} {rest : List Token} (h : r.TakenWhole source rest) :
    elements source (r.tokens ++ rest) = r.element source :: elements source rest := by
  have hdrop : (r.name :: (r.afterName ++ rest)).drop (r.afterName.length + 1) = rest := by
    simp
  change elements source (r.keyword :: r.name :: (r.afterName ++ rest)) = _
  rw [elements_cons, h, hdrop]
  rfl

theorem visits_of_takenWhole
    {source : String} {ts rest : List Token} {r : RoutineTokens} {position blocks : Nat}
    {given : List Element} (h : r.TakenWhole source rest)
    (before : Visits source ts position blocks given) (here : ts.drop position = r.tokens ++ rest) :
    Visits source ts (position + r.tokens.length) blocks (given ++ [r.element source]) := by
  have hlength : position + r.tokens.length = position + 1 + (r.afterName.length + 1) := by
    simp only [tokens, List.length_cons]
    omega
  rw [hlength]
  exact before.next here h (by simp [r.keyword_kind]) (by simp [r.keyword_kind])

/-- The text of a routine that is taken whole shows its signature and no more, so the reading of
the signature ended where it should. -/
theorem closes_of_takenWhole
    {source : String} {r : RoutineTokens} {rest : List Token} (h : r.TakenWhole source rest)
    (hne : ∀ t ∈ r.tokens, t.text ≠ "") : ClosesBeforeBody 0 r.signature := by
  rw [TakenWhole, step_eq, routineElement_eq, Prod.mk.injEq, Option.some.injEq] at h
  have htext := congrArg Element.text h.1
  simp only [Scan.element, element, afterName_append] at htext
  apply (signatureLength_eq_iff r.leftBrace_kind 0 r.signature
    (r.body ++ r.rightBrace :: rest)).mp
  generalize hlength : signatureLength 0
    (r.signature ++ r.leftBrace :: (r.body ++ r.rightBrace :: rest)) = n at htext ⊢
  rcases Nat.lt_trichotomy n r.signature.length with hlt | heq | hgt
  · -- The token that ended the reading belongs to the signature and is missing in the text.
    exfalso
    have hstops : r.signature[n].kind = .semicolon ∨ isBrace r.signature[n] = true := by
      apply signatureLength_stops 0
        (r.signature ++ r.leftBrace :: (r.body ++ r.rightBrace :: rest))
      rw [hlength, List.getElem?_append_left hlt]
      simp
    have hcomment : r.signature[n].kind.isComment = false := by
      rcases hstops with hkind | hbrace
      · rw [hkind]
        rfl
      · rcases (Bool.or_eq_true _ _).mp hbrace with hkind | hkind
        · rw [isLeftBrace_iff.mp hkind]
          rfl
        · rw [isRightBrace_iff.mp hkind]
          rfl
    have hmem : r.signature[n] ∈ r.tokens := by
      simp [tokens, afterName]
    have hparts : r.signature =
        r.signature.take n ++ r.signature[n] :: r.signature.drop (n + 1) := by
      simp
    rw [List.take_append_of_le_length hlt.le] at htext
    apply joinedFrom_append_ne hcomment (hne _ hmem) none
      (r.keyword :: r.name :: r.signature.take n) (r.signature.drop (n + 1))
    rw [List.cons_append, List.cons_append, ← hparts]
    exact htext.symm
  · exact heq
  · -- The text shows the brace that opens the body.
    exfalso
    obtain ⟨k, hk⟩ : ∃ k, n = r.signature.length + (k + 1) := ⟨n - r.signature.length - 1, by omega⟩
    rw [hk, List.take_length_add_append, List.take_succ_cons] at htext
    apply joinedFrom_append_ne (t := r.leftBrace) (by rw [r.leftBrace_kind]; rfl)
      (hne _ (by simp [tokens, afterName])) none (r.keyword :: r.name :: r.signature)
    exact htext

end RoutineTokens

end MarkerDoc.Scan
