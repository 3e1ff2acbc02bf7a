import MarkerDoc.Proofs.Lexeme
import MarkerDoc.Token.Quoted

/-!
# Quote-like constructs unfolded

The body of a construct is read character by character, with one equation for an escape and one for
every other character.  The extent of a whole construct is that of its parts behind the blanks after
the operator; its delimiters are never characters that end lines.
-/

namespace MarkerDoc.Quoted

section

variable {opener closer : Char} {depth : Nat}

theorem delimitedFrom_escape (d : Char) (rest : List Char) :
    delimitedFrom opener closer depth ('\\' :: d :: rest) =
      (delimitedFrom opener closer depth rest).map (· + 2) := by
  simp [delimitedFrom]

theorem delimitedFrom_cons {c : Char} (hescape : c ≠ '\\') (cs : List Char) :
    delimitedFrom opener closer depth (c :: cs) =
      if c = closer then
        match depth with
        | 0 => some 1
        | k + 1 => (delimitedFrom opener closer k cs).map (· + 1)
      else if c = opener then (delimitedFrom opener closer (depth + 1) cs).map (· + 1)
      else (delimitedFrom opener closer depth cs).map (· + 1) := by
  cases cs with
  | nil =>
      cases depth <;> simp [delimitedFrom, hescape]
  | cons d rest =>
      cases depth <;> simp [delimitedFrom, hescape]

theorem delimitedFrom_plain
    {c : Char} (hescape : c ≠ '\\') (hcloser : c ≠ closer) (hopener : c ≠ opener)
    (cs : List Char) :
    delimitedFrom opener closer depth (c :: cs) =
      (delimitedFrom opener closer depth cs).map (· + 1) := by
  rw [delimitedFrom_cons hescape, if_neg hcloser, if_neg hopener]

end

/-- A delimiter that is neither of the characters that end lines. -/
def IsInline (c : Char) : Prop :=
  c ≠ '\r' ∧ c ≠ '\n'

theorem isInline_closing {opener : Char} (h : IsInline opener) :
    IsInline ((closingBracket? opener).getD opener) := by
  unfold closingBracket?
  split_ifs
  case neg => exact h
  all_goals
    rw [Option.getD_some]
    exact ⟨by decide, by decide⟩

theorem isInline_of_isBlank {c : Char} (h : Text.isBlank c = false) : IsInline c := by
  constructor <;>
  · rintro rfl
    exact absurd h (by decide)

/-- The blanks that may stand between an operator and its delimiter. -/
def operatorGap (cs : List Char) : Nat :=
  (cs.takeWhile fun c => c == ' ' || c == '\t').length

theorem isBlank_of_opensBody {gap : Nat} {c : Char} (h : opensBody gap c = true) :
    Text.isBlank c = false := by
  simp only [opensBody, Bool.not_eq_true', Bool.or_eq_false_iff] at h
  exact h.1.1.2

/-- The parts of a construct behind its opening delimiter, through the modifiers. -/
def partsLength (twoParts : Bool) (opener : Char) (body : List Char) : Option Nat :=
  (delimited opener body).bind fun first =>
    (if twoParts then secondPart opener (body.drop first) else some 0).map fun second =>
      first + second + ((body.drop (first + second)).takeWhile Char.isLower).length

theorem extent_eq (twoParts : Bool) (cs : List Char) :
    extent twoParts cs =
      match cs.drop (operatorGap cs) with
      | [] => none
      | opener :: body =>
        if opensBody (operatorGap cs) opener then
          (partsLength twoParts opener body).map (operatorGap cs + 1 + ·)
        else none := by
  have hgap : (cs.takeWhile fun c => c == ' ' || c == '\t').length = operatorGap cs := rfl
  unfold extent partsLength
  simp only [hgap]
  cases hdrop : cs.drop (operatorGap cs) with
  | nil => rfl
  | cons opener body =>
      have hbody : ∀ n, cs.drop (operatorGap cs + 1 + n) = body.drop n := by
        intro n
        rw [Nat.add_assoc, ← List.drop_drop, hdrop, Nat.add_comm 1 n, List.drop_succ_cons]
      have hstart : cs.drop (operatorGap cs + 1) = body := hbody 0
      have hparts : ∀ m n, cs.drop (operatorGap cs + 1 + m + n) = body.drop (m + n) := by
        intro m n
        rw [Nat.add_assoc _ m n, hbody]
      simp only [List.head?_cons, Option.bind_eq_bind, Option.bind_some, hstart, hbody, hparts]
      split
      · cases delimited opener body with
        | none => rfl
        | some first =>
            cases twoParts with
            | false =>
                simp [Nat.add_assoc]
            | true =>
                cases hsecond : secondPart opener (body.drop first) with
                | none => simp [hsecond]
                | some second => simp [hsecond, Nat.add_assoc]
      · rfl

end MarkerDoc.Quoted
