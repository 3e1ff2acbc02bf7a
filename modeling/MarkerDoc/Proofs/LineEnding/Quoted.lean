import MarkerDoc.Proofs.LineEnding.Lexeme
import MarkerDoc.Proofs.Lexer
import MarkerDoc.Proofs.Quoted

/-!
# Carriage returns and long constructs

Quote-like constructs and embedded documentation blocks may run over many lines.  Their extent is
the same in a text and in its form with carriage returns: no delimiter is a character that ends
lines, an escaped line break leaves a plain line feed behind, and the line that closes a block may
have any white space after its command.
-/

namespace MarkerDoc

open Text

namespace Quoted

/-! ## Quote-like constructs -/

theorem map_spread_cons
    {c : Char} (hc : c ≠ '\n') (cs : List Char) (length : Option Nat) :
    (length.map (spread cs)).map (· + 1) = (length.map (· + 1)).map (spread (c :: cs)) := by
  cases length with
  | none => rfl
  | some n => simp [spread_cons_of_ne hc]

theorem map_spread_newline (cs : List Char) (length : Option Nat) :
    ((length.map (spread cs)).map (· + 1)).map (· + 1) =
      (length.map (· + 1)).map (spread ('\n' :: cs)) := by
  cases length with
  | none => rfl
  | some n => simp [spread_newline]

theorem delimitedFrom_crlf
    {opener closer : Char} (hopener : IsInline opener) (hcloser : IsInline closer) (depth : Nat)
    (cs : List Char) :
    delimitedFrom opener closer depth (crlf cs) =
      (delimitedFrom opener closer depth cs).map (spread cs) := by
  induction hlength : cs.length using Nat.strong_induction_on generalizing cs depth with
  | _ length ih =>
      cases cs with
      | nil =>
          simp [delimitedFrom]
      | cons c cs =>
          by_cases hescape : c = '\\'
          · subst hescape
            rw [crlf_cons_of_ne (by decide)]
            cases cs with
            | nil =>
                simp [delimitedFrom]
            | cons d rest =>
                have hrest := ih rest.length (by simp only [← hlength, List.length_cons]; omega)
                  depth rest rfl
                by_cases hd : d = '\n'
                · subst hd
                  rw [crlf_newline, delimitedFrom_escape, delimitedFrom_escape,
                    delimitedFrom_plain (by decide) hcloser.2.symm hopener.2.symm, hrest]
                  cases delimitedFrom opener closer depth rest <;>
                    simp [spread_cons_of_ne, spread_newline]
                · rw [crlf_cons_of_ne hd, delimitedFrom_escape, delimitedFrom_escape, hrest]
                  cases delimitedFrom opener closer depth rest <;>
                    simp [spread_cons_of_ne, hd]
          · have hrest : ∀ depth, delimitedFrom opener closer depth (crlf cs) =
                (delimitedFrom opener closer depth cs).map (spread cs) :=
              fun depth => ih cs.length (by simp [← hlength]) depth cs rfl
            by_cases hnewline : c = '\n'
            · subst hnewline
              rw [crlf_newline, delimitedFrom_plain (by decide) hcloser.1.symm hopener.1.symm,
                delimitedFrom_plain (by decide) hcloser.2.symm hopener.2.symm,
                delimitedFrom_plain (by decide) hcloser.2.symm hopener.2.symm, hrest,
                map_spread_newline]
            · rw [crlf_cons_of_ne hnewline, delimitedFrom_cons hescape,
                delimitedFrom_cons hescape]
              split
              · cases depth with
                | zero => simp [spread_cons_of_ne hnewline]
                | succ depth => simp only [hrest, map_spread_cons hnewline]
              · split
                · rw [hrest, map_spread_cons hnewline]
                · rw [hrest, map_spread_cons hnewline]

theorem delimited_crlf {opener : Char} (h : IsInline opener) (body : List Char) :
    delimited opener (crlf body) = (delimited opener body).map (spread body) :=
  delimitedFrom_crlf h (isInline_closing h) 0 body

theorem ignoresReturn_isBlank : IgnoresReturn Text.isBlank := by
  unfold IgnoresReturn
  decide

/-- What is left after the white space at the head does not begin with white space. -/
theorem isBlank_of_drop_takeWhile
    {cs rest : List Char} {c : Char}
    (h : cs.drop (cs.takeWhile Text.isBlank).length = c :: rest) : Text.isBlank c = false := by
  induction cs with
  | nil => simp at h
  | cons d cs ih =>
      cases hd : Text.isBlank d with
      | true =>
          simp only [List.takeWhile_cons, hd, if_true, List.length_cons,
            List.drop_succ_cons] at h
          exact ih h
      | false =>
          simp only [List.takeWhile_cons, hd, Bool.false_eq_true, if_false, List.length_nil,
            List.drop_zero, List.cons.injEq] at h
          exact h.1 ▸ hd

theorem secondPart_crlf {opener : Char} (h : IsInline opener) (rest : List Char) :
    secondPart opener (crlf rest) = (secondPart opener rest).map (spread rest) := by
  unfold secondPart
  cases closingBracket? opener with
  | none =>
      exact delimited_crlf h rest
  | some _ =>
      simp only [spread_takeWhile ignoresReturn_isBlank, drop_spread]
      cases hdrop : rest.drop (rest.takeWhile Text.isBlank).length with
      | nil => rfl
      | cons second body =>
          have hsecond := isInline_of_isBlank (isBlank_of_drop_takeWhile hdrop)
          have hspread : ∀ n, spread rest ((rest.takeWhile Text.isBlank).length + 1 + n) =
              spread rest (rest.takeWhile Text.isBlank).length + 1 + spread body n := by
            intro n
            rw [Nat.add_assoc, spread_add, hdrop, Nat.add_comm 1 n, spread_cons_of_ne hsecond.2]
            omega
          rw [crlf_cons_of_ne hsecond.2]
          simp only [delimited_crlf hsecond]
          cases delimited second body with
          | none => rfl
          | some n => simp [hspread]

theorem spread_operatorGap (cs : List Char) : spread cs (operatorGap cs) = operatorGap cs := by
  have htake : cs.take (operatorGap cs) = cs.takeWhile fun c => c == ' ' || c == '\t' :=
    (List.prefix_iff_eq_take.mp (List.takeWhile_prefix _)).symm
  have hline : '\n' ∉ cs.takeWhile fun c => c == ' ' || c == '\t' := by
    intro hmem
    have hblank := List.mem_takeWhile_imp hmem
    exact absurd hblank (by decide)
  rw [spread, htake, crlf_of_not_mem hline]
  rfl

theorem operatorGap_crlf (cs : List Char) : operatorGap (crlf cs) = operatorGap cs := by
  have hignores : IgnoresReturn fun c => c == ' ' || c == '\t' := by
    unfold IgnoresReturn
    decide
  exact (spread_takeWhile hignores cs).trans (spread_operatorGap cs)

theorem ignoresReturn_isLower : IgnoresReturn Char.isLower := by
  unfold IgnoresReturn
  decide

theorem partsLength_crlf (twoParts : Bool) {opener : Char} (h : IsInline opener)
    (body : List Char) :
    partsLength twoParts opener (crlf body) =
      (partsLength twoParts opener body).map (spread body) := by
  unfold partsLength
  rw [delimited_crlf h]
  cases delimited opener body with
  | none => rfl
  | some first =>
      simp only [Option.map_some, Option.bind_some, drop_spread, secondPart_crlf h]
      have hsecond : (if twoParts = true then
          (secondPart opener (body.drop first)).map (spread (body.drop first)) else some 0) =
          (if twoParts = true then secondPart opener (body.drop first) else some 0).map
            (spread (body.drop first)) := by
        cases twoParts <;> simp
      rw [hsecond]
      cases (if twoParts = true then secondPart opener (body.drop first) else some 0) with
      | none => rfl
      | some second =>
          have hparts : spread body first + spread (body.drop first) second =
              spread body (first + second) := (spread_add body first second).symm
          simp only [Option.map_some, hparts, drop_spread, spread_takeWhile ignoresReturn_isLower,
            spread_add body (first + second)]

theorem extent_crlf (twoParts : Bool) (cs : List Char) :
    extent twoParts (crlf cs) = (extent twoParts cs).map (spread cs) := by
  have hdrop : (crlf cs).drop (operatorGap cs) = crlf (cs.drop (operatorGap cs)) := by
    have hspread := drop_spread cs (operatorGap cs)
    rwa [spread_operatorGap] at hspread
  rw [extent_eq, extent_eq, operatorGap_crlf, hdrop]
  cases hbody : cs.drop (operatorGap cs) with
  | nil => rfl
  | cons opener body =>
      by_cases hline : opener = '\n'
      · subst hline
        have hclosed : ∀ c, Text.isBlank c = true → opensBody (operatorGap cs) c = false := by
          intro c hc
          simp [opensBody, hc]
        simp [hclosed '\n' (by decide), hclosed '\r' (by decide)]
      · rw [crlf_cons_of_ne hline]
        by_cases hopens : opensBody (operatorGap cs) opener = true
        · have hopener := isInline_of_isBlank (isBlank_of_opensBody hopens)
          have hspread : ∀ n, spread cs (operatorGap cs + 1 + n) =
              operatorGap cs + 1 + spread body n := by
            intro n
            rw [Nat.add_assoc, spread_add, spread_operatorGap, hbody, Nat.add_comm 1 n,
              spread_cons_of_ne hline]
            omega
          simp only [hopens, if_true, partsLength_crlf twoParts hopener]
          cases partsLength twoParts opener body with
          | none => rfl
          | some n => simp [hspread]
        · simp [hopens]

end Quoted

/-! ## Texts without line breaks -/

/-- A text that is written within one line in either form. -/
def IsInlineText (s : String) : Prop :=
  '\r' ∉ s.toList ∧ '\n' ∉ s.toList

instance (s : String) : Decidable (IsInlineText s) :=
  inferInstanceAs (Decidable (_ ∧ _))

theorem mem_iff_of_crlf
    {s s' : String} (h : s'.toList = crlf s.toList) {texts : List String}
    (htexts : ∀ w ∈ texts, IsInlineText w) : s' ∈ texts ↔ s ∈ texts := by
  have hsame : ∀ w, IsInlineText w → (s' = w ↔ s = w) := by
    intro w hw
    rw [← String.toList_inj, ← String.toList_inj, h]
    exact crlf_eq_iff hw.1 hw.2
  constructor
  · intro hmem
    rwa [(hsame s' (htexts s' hmem)).mp rfl]
  · intro hmem
    rwa [(hsame s (htexts s hmem)).mpr rfl]

theorem contains_of_crlf
    {s s' : String} (h : s'.toList = crlf s.toList) {texts : List String}
    (htexts : ∀ w ∈ texts, IsInlineText w) : texts.contains s' = texts.contains s := by
  rw [Bool.eq_iff_iff, List.contains_iff_mem, List.contains_iff_mem]
  exact mem_iff_of_crlf h htexts

theorem eq_iff_of_crlf
    {s s' w : String} (h : s'.toList = crlf s.toList) (hw : IsInlineText w) :
    s' = w ↔ s = w := by
  have hmem : s' ∈ [w] ↔ s ∈ [w] := mem_iff_of_crlf h (by simpa using hw)
  simpa using hmem

namespace Token

/-- The same token in a text and in its form with carriage returns, wherever it stands. -/
structure SameText (t t' : Token) : Prop where
  kind : t'.kind = t.kind
  text : t'.text.toList = crlf t.text.toList

end Token

namespace Quoted

theorem slashOpensMatch_crlf
    {previous previous' : Option Token} (h : Option.Rel Token.SameText previous previous') :
    slashOpensMatch previous' = slashOpensMatch previous := by
  cases h with
  | none => rfl
  | @some t t' h =>
      have hparen : t'.text = ")" ↔ t.text = ")" := eq_iff_of_crlf h.text (by decide)
      have hbracket : t'.text = "]" ↔ t.text = "]" := eq_iff_of_crlf h.text (by decide)
      have hkeyword : matchKeywords.contains t'.text = matchKeywords.contains t.text :=
        contains_of_crlf h.text (by decide)
      simp only [slashOpensMatch, h.kind, hkeyword, bne, beq_eq_decide, hparen, hbracket]

theorem continuation?_crlf
    {before : Option Char} {previous previous' : Option Token} {t t' : Token}
    (hprevious : Option.Rel Token.SameText previous previous') (ht : t.SameText t')
    (after : List Char) :
    continuation? before previous' t' (crlf after) =
      (continuation? before previous t after).map (spread after) := by
  have hkinds : previous'.map (·.kind) = previous.map (·.kind) := by
    cases hprevious with
    | none => rfl
    | some h => simp [h.kind]
  have hoperator : operators.contains t'.text = operators.contains t.text :=
    contains_of_crlf ht.text (by decide)
  have hsubstitution : substitutions.contains t'.text = substitutions.contains t.text :=
    contains_of_crlf ht.text (by decide)
  have hslash : t'.text = "/" ↔ t.text = "/" := eq_iff_of_crlf ht.text (by decide)
  have hextent : extent false ('/' :: crlf after) =
      (extent false ('/' :: after)).map (spread ('/' :: after)) := by
    rw [← crlf_cons_of_ne (by decide), extent_crlf]
  have hpred : ∀ n, spread ('/' :: after) n - 1 = spread after (n - 1) := by
    intro n
    cases n with
    | zero => simp
    | succ n => simp [spread_cons_of_ne]
  unfold continuation?
  rw [ht.kind]
  split
  · rw [hoperator, hsubstitution, hkinds]
    split_ifs
    · rfl
    · exact extent_crlf _ after
    · rfl
  · simp only [hslash, slashOpensMatch_crlf hprevious, hextent]
    split_ifs
    · cases extent false ('/' :: after) with
      | none => rfl
      | some n =>
          simp only [Option.map_some, Option.bind_eq_bind, Option.bind_some, hpred, take_spread,
            newline_mem_crlf_iff]
          split <;> rfl
    · rfl
  · rfl

end Quoted

namespace Pod

/-! ## Documentation blocks -/

theorem opens_crlf (cs : List Char) : opens (crlf cs) = opens cs := by
  match cs with
  | [] =>
      rfl
  | [c] =>
      by_cases hc : c = '\n'
      · subst hc
        rfl
      · rw [crlf_cons_of_ne hc]
        rfl
  | c :: d :: rest =>
      by_cases hequals : c = '='
      · subst hequals
        rw [crlf_cons_of_ne (by decide)]
        by_cases hd : d = '\n'
        · subst hd
          rfl
        · rw [crlf_cons_of_ne hd]
          rfl
      · have hfalse : ∀ cs, opens (c :: cs) = false := by
          intro cs
          unfold opens
          split <;> simp_all
        by_cases hc : c = '\n'
        · subst hc
          rfl
        · rw [crlf_cons_of_ne hc, hfalse, hfalse]

/-- A character that the lead does not have can only come after the lead. -/
theorem afterLead?_append_of_not_mem
    {lead : List Char} {c : Char} (hc : c ∉ lead) (cs more : List Char) :
    afterLead? lead (cs ++ c :: more) = (afterLead? lead cs).map (· ++ c :: more) := by
  induction lead generalizing cs with
  | nil => rfl
  | cons l lead ih =>
      rw [List.mem_cons, not_or] at hc
      cases cs with
      | nil => simp [afterLead?, Ne.symm hc.1]
      | cons d cs =>
          by_cases hd : l = d
          · simp [afterLead?, hd, ih hc.2]
          · simp [afterLead?, hd]

/-- A closing line closes its block with either line ending. -/
theorem isCut_return (line : List Char) :
    isCut (line ++ ['\r', '\n']) = isCut (line ++ ['\n']) := by
  unfold isCut
  rw [afterLead?_append_of_not_mem (by decide), afterLead?_append_of_not_mem (by decide)]
  cases afterLead? "=cut".toList line with
  | none => rfl
  | some rest =>
      cases rest with
      | nil => exact Quoted.ignoresReturn_isBlank
      | cons c rest => rfl

theorem lengthFrom_crlf (line cs : List Char) :
    lengthFrom line (crlf cs) = spread cs (lengthFrom line cs) := by
  induction cs generalizing line with
  | nil => rfl
  | cons c cs ih =>
      by_cases hc : c = '\n'
      · subst hc
        have hcut : isCut ('\n' :: '\r' :: line).reverse = isCut ('\n' :: line).reverse := by
          simpa using isCut_return line.reverse
        rw [crlf_newline, lengthFrom, if_neg (by decide), lengthFrom, if_pos rfl, lengthFrom,
          if_pos rfl, hcut, ih]
        split
        · rw [spread_newline, spread_zero]
        · rw [spread_newline]
      · rw [crlf_cons_of_ne hc, lengthFrom, if_neg hc, lengthFrom, if_neg hc, ih,
          spread_cons_of_ne hc]

theorem length_crlf (cs : List Char) : length (crlf cs) = spread cs (length cs) :=
  lengthFrom_crlf [] cs

end Pod

end MarkerDoc
