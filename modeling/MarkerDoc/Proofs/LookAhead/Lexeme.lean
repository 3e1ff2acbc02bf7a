import MarkerDoc.Proofs.Coverage

/-!
# Lexemes at the end of a line

The lexer may look at text far behind the place where it stands.  This module is about its patterns:
a word, a variable, a number or a comment is decided within its line, whatever the lines after it
hold, and a quoted text is either closed in the lines given or goes on in the text behind them as if
it had begun there.
-/

namespace MarkerDoc

/-- A text of whole lines, at least one. -/
def EndsLine (cs : List Char) : Prop :=
  cs.getLast? = some '\n'

section

variable {c : Char} {cs front rest : List Char}

theorem atLineStart_iff : AtLineStart cs ↔ cs = [] ∨ EndsLine cs :=
  Iff.rfl

theorem EndsLine.ne_nil (h : EndsLine cs) : cs ≠ [] := by
  rintro rfl
  cases h

theorem EndsLine.newline_mem (h : EndsLine cs) : '\n' ∈ cs :=
  List.mem_of_getLast? h

theorem EndsLine.of_append (h : EndsLine (front ++ rest)) : AtLineStart rest := by
  by_cases hrest : rest = []
  · exact .inl hrest
  · right
    unfold EndsLine at h
    rwa [List.getLast?_append_of_ne_nil _ hrest] at h

theorem EndsLine.tail (h : EndsLine (c :: cs)) : AtLineStart cs := by
  rw [← List.singleton_append] at h
  exact h.of_append

theorem EndsLine.tail_of_ne (h : EndsLine (c :: cs)) (hc : c ≠ '\n') : EndsLine cs := by
  refine h.tail.resolve_left ?_
  rintro rfl
  exact hc (Option.some.inj h)

theorem EndsLine.drop (h : EndsLine cs) {n : Nat} (hn : n < cs.length) : EndsLine (cs.drop n) := by
  rw [← List.take_append_drop n cs] at h
  refine h.of_append.resolve_left ?_
  rw [List.drop_eq_nil_iff]
  omega

theorem EndsLine.exists_line (h : EndsLine cs) :
    ∃ line rest, cs = line ++ '\n' :: rest ∧ '\n' ∉ line :=
  List.eq_append_cons_of_mem h.newline_mem

end

namespace Lexeme

/-! ## Measures within a line -/

/-- A measure of the head of a text that never looks past the first line break. -/
def StaysInLine (measure : List Char → Nat) : Prop :=
  ∀ line, '\n' ∉ line → ∃ n ≤ line.length, ∀ rest, measure (line ++ '\n' :: rest) = n

theorem StaysInLine.of_endsLine
    {measure : List Char → Nat} (h : StaysInLine measure) {cs : List Char} (hcs : EndsLine cs) :
    ∃ n < cs.length, ∀ behind, measure (cs ++ behind) = n := by
  obtain ⟨line, rest, rfl, hline⟩ := hcs.exists_line
  obtain ⟨n, hn, hmeasure⟩ := h line hline
  refine ⟨n, ?_, ?_⟩
  · rw [List.length_append, List.length_cons]
    omega
  · intro behind
    rw [List.append_assoc, List.cons_append]
    exact hmeasure (rest ++ behind)

theorem staysInLine_takeWhile {p : Char → Bool} (hp : p '\n' = false) :
    StaysInLine fun cs => (cs.takeWhile p).length := by
  intro line _
  refine ⟨(line.takeWhile p).length, (List.takeWhile_prefix p).length_le, ?_⟩
  intro rest
  have hbreak : ('\n' :: rest).takeWhile p = [] := by
    rw [List.takeWhile_cons, hp]
    rfl
  simp only [List.takeWhile_append, hbreak, List.append_nil]
  split
  · next hall => exact hall.symm
  · rfl

theorem StaysInLine.then
    {first second : List Char → Nat} (hfirst : StaysInLine first) (hsecond : StaysInLine second) :
    StaysInLine fun cs => first cs + second (cs.drop (first cs)) := by
  intro line hline
  obtain ⟨n, hn, hfirst⟩ := hfirst line hline
  obtain ⟨m, hm, hsecond⟩ := hsecond (line.drop n) fun hmem => hline (List.mem_of_mem_drop hmem)
  rw [List.length_drop] at hm
  refine ⟨n + m, by omega, ?_⟩
  intro rest
  simp only [hfirst]
  rw [List.drop_append_of_le_length hn, hsecond]

section

variable {tail : List Char → Nat} {after : Char → Bool} {alone : Nat}

theorem QualifiedTail.staysInLine_separator
    (h : QualifiedTail tail after alone) (halone : alone ≤ 2) (hafter : after '\n' = false)
    {line : List Char}
    (hline : ∀ e cs, line = e :: cs → ∃ n ≤ cs.length, ∀ rest, tail (cs ++ '\n' :: rest) = n) :
    ∃ n ≤ line.length + 2, ∀ rest, tail (':' :: ':' :: line ++ '\n' :: rest) = n := by
  have hopen : (∀ e ∈ line.head?, after e = false) →
      ∃ n ≤ line.length + 2, ∀ rest, tail (':' :: ':' :: line ++ '\n' :: rest) = n := by
    intro hhead
    refine ⟨alone, by omega, ?_⟩
    intro rest
    refine h.open_end (line ++ '\n' :: rest) ?_
    cases line with
    | nil => simpa using hafter
    | cons e cs => simpa using hhead
  cases line with
  | nil => exact hopen (by simp)
  | cons e cs =>
      by_cases he : after e = true
      · obtain ⟨n, hn, htail⟩ := hline e cs rfl
        refine ⟨n + 3, by simpa using hn, ?_⟩
        intro rest
        rw [← htail rest]
        exact h.separator e (cs ++ '\n' :: rest) he
      · exact hopen (by simpa using he)

theorem QualifiedTail.staysInLine
    (h : QualifiedTail tail after alone) (halone : alone ≤ 2) (hafter : after '\n' = false) :
    StaysInLine tail := by
  intro line hline
  -- A separator takes the character behind it along, so the induction is on the length.
  induction hlength : line.length using Nat.strong_induction_on generalizing line with
  | _ length ih =>
      subst hlength
      cases line with
      | nil =>
          refine ⟨0, le_rfl, ?_⟩
          intro rest
          exact h.stop '\n' rest (by decide) (by simp)
      | cons c line =>
          have hrest : '\n' ∉ line := fun hmem => hline (List.mem_cons_of_mem c hmem)
          by_cases hword : isWordChar c = true
          · obtain ⟨n, hn, htail⟩ := ih line.length (by simp) line hrest rfl
            refine ⟨n + 1, by simpa using hn, ?_⟩
            intro rest
            rw [List.cons_append, h.word c _ hword, htail]
          rw [Bool.not_eq_true] at hword
          by_cases hsep : [':', ':'] <+: c :: line
          · obtain ⟨line', hline'⟩ := hsep
            rw [← hline'] at hline ih ⊢
            refine h.staysInLine_separator halone hafter ?_
            rintro e cs rfl
            refine ih cs.length ?_ cs (fun hmem => hline (by simp [hmem])) rfl
            simp only [List.length_append, List.length_cons]
            omega
          · refine ⟨0, Nat.zero_le _, ?_⟩
            intro rest
            refine h.stop c _ hword ?_
            cases line with
            | nil => simp
            | cons d line => simpa using hsep

end

theorem staysInLine_bareWordTail : StaysInLine bareWordTail :=
  bareWordTail_qualified.staysInLine le_rfl (by decide)

theorem staysInLine_variableTail : StaysInLine variableTail :=
  variableTail_qualified.staysInLine (Nat.zero_le 2) (by decide)

theorem staysInLine_fractionTail : StaysInLine fractionTail := by
  have hdigits : StaysInLine fun cs => (cs.takeWhile isDigitOrUnderscore).length :=
    staysInLine_takeWhile (by decide)
  intro line hline
  match line with
  | [] => exact ⟨0, le_rfl, fun rest => rfl⟩
  | [c] =>
      refine ⟨0, Nat.zero_le _, ?_⟩
      intro rest
      unfold fractionTail
      split
      · next heq =>
          obtain ⟨-, heq⟩ := List.cons.inj heq
          obtain ⟨rfl, -⟩ := List.cons.inj heq
          rfl
      · rfl
  | c :: d :: line =>
      obtain ⟨n, hn, hlength⟩ := hdigits line (by simp_all)
      by_cases hfraction : c = '.' ∧ d.isDigit = true
      · obtain ⟨rfl, hd⟩ := hfraction
        refine ⟨2 + n, by simp; omega, ?_⟩
        intro rest
        simp only [List.cons_append, fractionTail, hd, if_true, hlength]
      · refine ⟨0, Nat.zero_le _, ?_⟩
        intro rest
        unfold fractionTail
        split
        · next heq => simp_all
        · rfl

theorem staysInLine_numberTail : StaysInLine numberTail := by
  have hdigits : StaysInLine fun cs => (cs.takeWhile isDigitOrUnderscore).length :=
    staysInLine_takeWhile (by decide)
  have hnumber := hdigits.then staysInLine_fractionTail
  simpa only [← numberTail_eq] using hnumber

/-! ## Lexemes of one line -/

/-- The characters that open a quoted text. -/
def IsQuote (c : Char) : Prop :=
  c = '"' ∨ c = Char.ofNat 0x27 ∨ c = Char.ofNat 0x60

theorem scan_of_isQuote {c : Char} (h : IsQuote c) (cs : List Char) :
    scan c cs =
      (.token (if (quotedTail c cs).1 then .string else .punctuation), (quotedTail c cs).2) := by
  rcases h with rfl | rfl | rfl <;> rfl

theorem ofComment_append {cs : List Char} (h : EndsLine cs) (behind : List Char) :
    ofComment (cs ++ behind) = ofComment cs := by
  match cs with
  | [] => cases h
  | [c] =>
      obtain rfl := Option.some.inj h
      rfl
  | c :: d :: cs =>
      unfold ofComment
      split <;> split <;> simp_all

theorem ofWord_append (word : String) {after : List Char} (h : after ≠ []) (behind : List Char) :
    ofWord word (after ++ behind) = ofWord word after := by
  have hhead : (after ++ behind).head? = after.head? := List.head?_append_of_ne_nil after h
  unfold ofWord
  rw [hhead]

theorem exists_ofSigil (sigil : Char) {cs : List Char} (h : EndsLine cs) :
    ∃ lexeme, ∃ n < cs.length, ∀ behind, ofSigil sigil (cs ++ behind) = (lexeme, n) := by
  obtain ⟨c, cs, rfl⟩ := List.exists_cons_of_ne_nil h.ne_nil
  by_cases hname : isWordStart c = true
  · have hline : EndsLine cs := h.tail_of_ne (ne_of_isWordStart hname (by decide))
    obtain ⟨n, hn, htail⟩ := staysInLine_variableTail.of_endsLine hline
    refine ⟨.token .variableName, 1 + n, by rw [List.length_cons]; omega, ?_⟩
    intro behind
    simp only [List.cons_append, ofSigil, hname, if_true, htail]
  · by_cases hspecial : sigil = '$' ∧ c ∈ specialVariables
    · have hc : c ≠ '\n' := by
        rintro rfl
        exact absurd hspecial.2 (by decide)
      have hpos := List.length_pos_iff.mpr (h.tail_of_ne hc).ne_nil
      refine ⟨.token .variableName, 1, by rw [List.length_cons]; omega, ?_⟩
      intro behind
      simp only [List.cons_append, ofSigil, hname, hspecial, if_true, Bool.false_eq_true, if_false,
        and_self]
    · refine ⟨.token .punctuation, 0, by simp, ?_⟩
      intro behind
      simp only [List.cons_append, ofSigil, hname, hspecial, Bool.false_eq_true, if_false]

/-- A lexeme that is none of the patterns is the character alone. -/
theorem scan_mark
    {c : Char} (hspacing : ¬ isSpacing c = true) (hline : c ≠ '\n') (hcomment : c ≠ '#')
    (hword : ¬ isWordStart c = true) (hdigit : ¬ c.isDigit = true)
    (hsigil : ¬ (c = '$' ∨ c = '@' ∨ c = '%' ∨ c = '&')) (hquote : ¬ IsQuote c) :
    ∃ lexeme, ∀ cs, scan c cs = (lexeme, 0) := by
  unfold IsQuote at hquote
  have hscan : ∀ cs, scan c cs =
      if c = Char.ofNat 0x7B then (.token .leftBrace, 0)
      else if c = Char.ofNat 0x7D then (.token .rightBrace, 0)
      else if c = ';' then (.token .semicolon, 0)
      else (.token .punctuation, 0) := by
    intro cs
    rw [scan, if_neg hspacing, if_neg hline, if_neg hcomment, if_neg hword, if_neg hdigit,
      if_neg hsigil, if_neg hquote]
  simp only [hscan]
  split_ifs <;> exact ⟨_, fun _ => rfl⟩

/-- Every lexeme but a quoted text ends before the line does, whatever stands behind the line. -/
theorem exists_scan {c : Char} (hquote : ¬ IsQuote c) {cs : List Char} (h : EndsLine cs) :
    ∃ lexeme, ∃ n < cs.length, ∀ behind, scan c (cs ++ behind) = (lexeme, n) := by
  have hpos := List.length_pos_iff.mpr h.ne_nil
  by_cases hspacing : isSpacing c = true
  · refine ⟨.blank, 0, hpos, ?_⟩
    intro behind
    rw [scan, if_pos hspacing]
  by_cases hline : c = '\n'
  · refine ⟨.newline, 0, hpos, ?_⟩
    intro behind
    rw [scan, if_neg hspacing, if_pos hline]
  by_cases hcomment : c = '#'
  · obtain ⟨n, hn, hlength⟩ := (staysInLine_takeWhile (p := (· != '\n')) rfl).of_endsLine h
    refine ⟨.token (ofComment cs), n, hn, ?_⟩
    intro behind
    rw [hcomment, scan_comment, hlength, ofComment_append h]
  by_cases hword : isWordStart c = true
  · obtain ⟨n, hn, hlength⟩ := staysInLine_bareWordTail.of_endsLine h
    refine ⟨ofWord (String.ofList (c :: cs.take n)) (cs.drop n), n, hn, ?_⟩
    intro behind
    rw [scan_of_isWordStart hword, hlength, List.take_append_of_le_length hn.le,
      List.drop_append_of_le_length hn.le, ofWord_append _ (h.drop hn).ne_nil]
  by_cases hdigit : c.isDigit = true
  · obtain ⟨n, hn, hlength⟩ := staysInLine_numberTail.of_endsLine h
    refine ⟨.token .number, n, hn, ?_⟩
    intro behind
    rw [scan, if_neg hspacing, if_neg hline, if_neg hcomment, if_neg hword, if_pos hdigit, hlength]
  by_cases hsigil : c = '$' ∨ c = '@' ∨ c = '%' ∨ c = '&'
  · obtain ⟨lexeme, n, hn, hscan⟩ := exists_ofSigil c h
    refine ⟨lexeme, n, hn, ?_⟩
    intro behind
    rw [scan, if_neg hspacing, if_neg hline, if_neg hcomment, if_neg hword, if_neg hdigit,
      if_pos hsigil, hscan]
  obtain ⟨lexeme, hscan⟩ := scan_mark hspacing hline hcomment hword hdigit hsigil hquote
  exact ⟨lexeme, 0, hpos, fun behind => hscan _⟩

/-! ## Quoted texts -/

/-- A quoted text is closed in the lines given, or goes on behind them. -/
theorem quotedTail_append
    {quote : Char} (hescape : quote ≠ '\\') (hline : quote ≠ '\n') {cs : List Char}
    (h : AtLineStart cs) :
    (∃ n < cs.length, ∀ behind, quotedTail quote (cs ++ behind) = (true, n)) ∨
      ∀ behind, quotedTail quote (cs ++ behind) =
        ((quotedTail quote behind).1, cs.length + (quotedTail quote behind).2) := by
  induction hlength : cs.length using Nat.strong_induction_on generalizing cs with
  | _ length ih =>
      subst hlength
      rcases atLineStart_iff.mp h with rfl | h
      · right
        intro behind
        simp
      obtain ⟨c, cs, rfl⟩ := List.exists_cons_of_ne_nil h.ne_nil
      by_cases hc : c = '\\'
      · subst hc
        have hcs : EndsLine cs := h.tail_of_ne (by decide)
        obtain ⟨d, cs, rfl⟩ := List.exists_cons_of_ne_nil hcs.ne_nil
        rcases ih cs.length (by simp) hcs.tail rfl with ⟨n, hn, hclosed⟩ | hopen
        · left
          refine ⟨n + 2, by simpa using hn, ?_⟩
          intro behind
          rw [List.cons_append, List.cons_append, quotedTail_escape, hclosed]
        · right
          intro behind
          rw [List.cons_append, List.cons_append, quotedTail_escape, hopen]
          simp only [List.length_cons, Prod.mk.injEq, true_and]
          omega
      · by_cases hquote : c = quote
        · subst hquote
          left
          have hpos := List.length_pos_iff.mpr (h.tail_of_ne hline).ne_nil
          refine ⟨1, by rw [List.length_cons]; omega, ?_⟩
          intro behind
          rw [List.cons_append, quotedTail_close hescape]
        · rcases ih cs.length (by simp) h.tail rfl with ⟨n, hn, hclosed⟩ | hopen
          · left
            refine ⟨n + 1, by simpa using hn, ?_⟩
            intro behind
            rw [List.cons_append, quotedTail_plain hc hquote, hclosed]
          · right
            intro behind
            rw [List.cons_append, quotedTail_plain hc hquote, hopen]
            simp only [List.length_cons, Prod.mk.injEq, true_and]
            omega

end Lexeme

end MarkerDoc
