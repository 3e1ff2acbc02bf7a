import MarkerDoc.Proofs.Composition

/-!
# Balanced tokens

The scanner finds the end of a block by counting braces.  What makes counting right is that the
tokens inside a block are balanced: every opener among them has its closer, so they leave the count
as it was.  Here this is proved once for each of the counting recursions, and the length of a block
follows.
-/

namespace MarkerDoc.Scan

/-- Tokens in which openers and closers match. -/
inductive Balanced (opens closes : Token → Bool) : List Token → Prop
  | nil : Balanced opens closes []
  | plain {t : Token} {ts : List Token} (hopens : opens t = false) (hcloses : closes t = false)
      (hts : Balanced opens closes ts) : Balanced opens closes (t :: ts)
  | group {l r : Token} {inside ts : List Token} (hl : opens l = true) (hr : closes r = true)
      (hinside : Balanced opens closes inside) (hts : Balanced opens closes ts) :
      Balanced opens closes (l :: (inside ++ r :: ts))

theorem Balanced.congr
    {opens closes opens' closes' : Token → Bool} {ts : List Token}
    (h : Balanced opens closes ts)
    (hsame : ∀ t ∈ ts, opens' t = opens t ∧ closes' t = closes t) :
    Balanced opens' closes' ts := by
  induction h with
  | nil =>
      exact .nil
  | plain hopens hcloses hts ih =>
      obtain ⟨⟨ho, hc⟩, hrest⟩ := List.forall_mem_cons.mp hsame
      exact .plain (ho.trans hopens) (hc.trans hcloses) (ih hrest)
  | group hl hr hinside hts ihinside ihts =>
      obtain ⟨⟨ho, -⟩, htail⟩ := List.forall_mem_cons.mp hsame
      obtain ⟨hinner, hright⟩ := List.forall_mem_append.mp htail
      obtain ⟨⟨-, hc⟩, hlater⟩ := List.forall_mem_cons.mp hright
      exact .group (ho.trans hl) (hc.trans hr) (ihinside hinner) (ihts hlater)

def isLeftBrace (t : Token) : Bool :=
  t.kind == .leftBrace

def isRightBrace (t : Token) : Bool :=
  t.kind == .rightBrace

def isLeftParen (t : Token) : Bool :=
  t.kind == .punctuation && t.text == "("

def isRightParen (t : Token) : Bool :=
  t.kind == .punctuation && t.text == ")"

theorem isLeftBrace_iff {t : Token} : isLeftBrace t = true ↔ t.kind = .leftBrace := by
  simp [isLeftBrace]

theorem isRightBrace_iff {t : Token} : isRightBrace t = true ↔ t.kind = .rightBrace := by
  simp [isRightBrace]

theorem brace_cases (t : Token) :
    t.kind = .leftBrace ∨ t.kind = .rightBrace ∨
      isLeftBrace t = false ∧ isRightBrace t = false := by
  by_cases hl : t.kind = .leftBrace
  · exact .inl hl
  · by_cases hr : t.kind = .rightBrace
    · exact .inr (.inl hr)
    · exact .inr (.inr (by simp [isLeftBrace, isRightBrace, hl, hr]))

theorem kind_of_isParen {t : Token} (h : isLeftParen t = true ∨ isRightParen t = true) :
    t.kind = .punctuation := by
  simp only [isLeftParen, isRightParen, Bool.and_eq_true, beq_iff_eq] at h
  exact h.elim And.left And.left

section

variable {ts : List Token}

/-! ## Blocks -/

theorem blockLengthFrom_leftBrace
    (depth : Nat) {t : Token} (ts : List Token) (ht : t.kind = .leftBrace) :
    blockLengthFrom depth (t :: ts) = (blockLengthFrom (depth + 1) ts).map (· + 1) := by
  simp only [blockLengthFrom, ht]

theorem blockLengthFrom_rightBrace
    (depth : Nat) {t : Token} (ts : List Token) (ht : t.kind = .rightBrace) :
    blockLengthFrom (depth + 1) (t :: ts) =
      if depth = 0 then some 1 else (blockLengthFrom depth ts).map (· + 1) := by
  simp only [blockLengthFrom, ht, Nat.add_sub_cancel]

theorem blockLengthFrom_other
    (depth : Nat) {t : Token} (ts : List Token) (hl : isLeftBrace t = false)
    (hr : isRightBrace t = false) :
    blockLengthFrom depth (t :: ts) = (blockLengthFrom depth ts).map (· + 1) := by
  simp only [isLeftBrace, isRightBrace, beq_eq_false_iff_ne] at hl hr
  simp only [blockLengthFrom]

/-- The block that a left brace opens ends with the right brace behind balanced tokens. -/
theorem blockLengthFrom_balanced
    (h : Balanced isLeftBrace isRightBrace ts) (depth : Nat) (rest : List Token) :
    blockLengthFrom (depth + 1) (ts ++ rest) =
      (blockLengthFrom (depth + 1) rest).map (· + ts.length) := by
  induction h generalizing depth rest with
  | nil =>
      simp
  | @plain t ts hopens hcloses hts ih =>
      rw [List.cons_append, blockLengthFrom_other _ _ hopens hcloses, ih, Option.map_map]
      rfl
  | @group l r inside ts hl hr hinside hts ihinside ihts =>
      rw [List.cons_append, List.append_assoc, List.cons_append,
        blockLengthFrom_leftBrace _ _ (isLeftBrace_iff.mp hl), ihinside,
        blockLengthFrom_rightBrace _ _ (isRightBrace_iff.mp hr), if_neg (Nat.succ_ne_zero depth),
        ihts]
      simp only [Option.map_map, List.length_cons, List.length_append]
      congr 1
      funext n
      simp only [Function.comp_apply]
      omega

theorem blockLength_balanced
    {l r : Token} (hl : l.kind = .leftBrace) (h : Balanced isLeftBrace isRightBrace ts)
    (hr : r.kind = .rightBrace) (rest : List Token) :
    blockLength (l :: (ts ++ r :: rest)) = some (ts.length + 2) := by
  rw [blockLength, blockLengthFrom_leftBrace _ _ hl, blockLengthFrom_balanced h,
    blockLengthFrom_rightBrace _ _ hr, if_pos rfl, Option.map_some, Option.map_some,
    Nat.add_assoc, Nat.add_comm]

/-! ## Statements -/

theorem statementExtent_leftBrace
    (blockEnds : Bool) (depth : Nat) {t : Token} (ts : List Token) (ht : t.kind = .leftBrace) :
    statementExtent blockEnds depth (t :: ts) =
      (statementExtent blockEnds (depth + 1) ts).succ := by
  simp only [statementExtent, ht]

theorem statementExtent_rightBrace
    (blockEnds : Bool) (depth : Nat) {t : Token} (ts : List Token) (ht : t.kind = .rightBrace) :
    statementExtent blockEnds (depth + 1) (t :: ts) =
      if depth = 0 ∧ blockEnds then ⟨1, 1⟩ else (statementExtent blockEnds depth ts).succ := by
  simp only [statementExtent, ht]

theorem statementExtent_semicolon
    (blockEnds : Bool) {t : Token} (ts : List Token) (ht : t.kind = .semicolon) :
    statementExtent blockEnds 0 (t :: ts) = ⟨0, 1⟩ := by
  simp only [statementExtent, ht]

/-- A token that is no brace goes into the statement, unless it is a semicolon outside all
braces. -/
theorem statementExtent_other
    (blockEnds : Bool) (depth : Nat) {t : Token} (ts : List Token) (hl : isLeftBrace t = false)
    (hr : isRightBrace t = false) (hsemicolon : depth = 0 → t.kind ≠ .semicolon) :
    statementExtent blockEnds depth (t :: ts) = (statementExtent blockEnds depth ts).succ := by
  simp only [isLeftBrace, isRightBrace, beq_eq_false_iff_ne] at hl hr
  simp only [statementExtent]
  split <;> simp_all

/-- The measures of a statement with some tokens in front of it. -/
def Extent.behind (e : Extent) (n : Nat) : Extent :=
  ⟨e.shown + n, e.used + n⟩

theorem Extent.succ_behind (e : Extent) (n : Nat) : (e.behind n).succ = e.behind (n + 1) := by
  rfl

theorem Extent.behind_succ (e : Extent) (n : Nat) : e.succ.behind n = e.behind (n + 1) := by
  simp only [Extent.succ, Extent.behind, Nat.add_assoc, Nat.add_comm 1]

/-- Inside braces neither a semicolon nor a balanced group ends a statement. -/
theorem statementExtent_balanced
    (blockEnds : Bool) (h : Balanced isLeftBrace isRightBrace ts) (depth : Nat)
    (rest : List Token) :
    statementExtent blockEnds (depth + 1) (ts ++ rest) =
      (statementExtent blockEnds (depth + 1) rest).behind ts.length := by
  induction h generalizing depth rest with
  | nil =>
      rfl
  | @plain t ts hopens hcloses hts ih =>
      rw [List.cons_append, statementExtent_other _ _ _ hopens hcloses (by simp), ih,
        Extent.succ_behind, List.length_cons]
  | @group l r inside ts hl hr hinside hts ihinside ihts =>
      rw [List.cons_append, List.append_assoc, List.cons_append,
        statementExtent_leftBrace _ _ _ (isLeftBrace_iff.mp hl), ihinside,
        statementExtent_rightBrace _ _ _ (isRightBrace_iff.mp hr), if_neg (by simp), ihts]
      simp only [Extent.behind, Extent.succ, List.length_cons, List.length_append,
        Extent.mk.injEq]
      omega

end

end MarkerDoc.Scan
