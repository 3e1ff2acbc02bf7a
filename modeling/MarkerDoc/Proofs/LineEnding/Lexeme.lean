import MarkerDoc.Proofs.Lexeme
import MarkerDoc.Proofs.Text

/-!
# Carriage returns and lexemes

A text may end its lines with a line feed or with a carriage return and a line feed.  The second
form has one more character for every line break, so whatever is measured in it is longer by the
number of line breaks that it takes in: `spread` carries a length over.  Words, variables, numbers
and quoted texts reach exactly as far in both forms.  A comment is the one exception, since it takes
in the carriage return that ends its line; it is left to the lexer.
-/

namespace MarkerDoc

namespace Text

/-- The text with a carriage return before every line feed. -/
def crlf (cs : List Char) : List Char :=
  cs.flatMap fun c => if c = '\n' then ['\r', '\n'] else [c]

/-- The length, in the text with carriage returns, of what the first `n` characters become. -/
def spread (cs : List Char) (n : Nat) : Nat :=
  (crlf (cs.take n)).length

@[simp] theorem crlf_nil : crlf [] = [] :=
  rfl

@[simp] theorem crlf_newline (cs : List Char) : crlf ('\n' :: cs) = '\r' :: '\n' :: crlf cs :=
  rfl

theorem crlf_cons_of_ne {c : Char} (hc : c ≠ '\n') (cs : List Char) :
    crlf (c :: cs) = c :: crlf cs := by
  simp [crlf, hc]

theorem crlf_append (cs ds : List Char) : crlf (cs ++ ds) = crlf cs ++ crlf ds :=
  List.flatMap_append

theorem crlf_of_not_mem {cs : List Char} (h : '\n' ∉ cs) : crlf cs = cs := by
  induction cs with
  | nil => rfl
  | cons c cs ih =>
      rw [List.mem_cons, not_or] at h
      rw [crlf_cons_of_ne (Ne.symm h.1), ih h.2]

theorem newline_mem_crlf_iff (cs : List Char) : '\n' ∈ crlf cs ↔ '\n' ∈ cs := by
  induction cs with
  | nil => simp
  | cons c cs ih =>
      by_cases hc : c = '\n'
      · simp [hc]
      · simp [crlf_cons_of_ne hc, ih]

theorem return_mem_crlf {cs : List Char} (h : '\n' ∈ cs) : '\r' ∈ crlf cs := by
  obtain ⟨front, rest, rfl⟩ := List.append_of_mem h
  simp [crlf_append]

/-- Only a text without line breaks becomes one without carriage returns, and it stays as it is. -/
theorem crlf_eq_iff {cs ds : List Char} (hds : '\r' ∉ ds) (hline : '\n' ∉ ds) :
    crlf cs = ds ↔ cs = ds := by
  constructor
  · rintro rfl
    have hcs : '\n' ∉ cs := fun h => hds (return_mem_crlf h)
    exact (crlf_of_not_mem hcs).symm
  · rintro rfl
    exact crlf_of_not_mem hline

theorem getLast?_crlf (cs : List Char) : (crlf cs).getLast? = cs.getLast? := by
  induction cs using List.reverseRecOn with
  | nil => rfl
  | append_singleton cs c _ =>
      by_cases hc : c = '\n'
      · simp [crlf_append, hc]
      · simp [crlf_append, crlf_cons_of_ne hc]

theorem count_newline_crlf (cs : List Char) : (crlf cs).count '\n' = cs.count '\n' := by
  induction cs with
  | nil => rfl
  | cons c cs ih =>
      by_cases hc : c = '\n'
      · simp [hc, ih]
      · simp [crlf_cons_of_ne hc, ih, hc]

/-- A class of characters that does not tell a carriage return from a line feed. -/
def IgnoresReturn (p : Char → Bool) : Prop :=
  p '\r' = p '\n'

theorem takeWhile_crlf {p : Char → Bool} (hp : IgnoresReturn p) (cs : List Char) :
    (crlf cs).takeWhile p = crlf (cs.takeWhile p) := by
  unfold IgnoresReturn at hp
  induction cs with
  | nil => rfl
  | cons c cs ih =>
      by_cases hc : c = '\n'
      · subst hc
        cases hline : p '\n' with
        | true => simp [hp.trans hline, hline, ih]
        | false => simp [hp.trans hline, hline]
      · rw [crlf_cons_of_ne hc]
        cases hpc : p c with
        | true => simp [hpc, ih, crlf_cons_of_ne hc]
        | false => simp [hpc]

/-- A text that stays within a line stands at the head of both forms or of none. -/
theorem prefix_crlf_iff
    {lead cs : List Char} (hreturn : '\r' ∉ lead) (hline : '\n' ∉ lead) :
    lead <+: crlf cs ↔ lead <+: cs := by
  induction lead generalizing cs with
  | nil => simp
  | cons l lead ih =>
      rw [List.mem_cons, not_or] at hreturn hline
      cases cs with
      | nil => simp
      | cons c cs =>
          by_cases hc : c = '\n'
          · subst hc
            simp [List.cons_prefix_cons, Ne.symm hreturn.1, Ne.symm hline.1]
          · rw [crlf_cons_of_ne hc, List.cons_prefix_cons, List.cons_prefix_cons,
              ih hreturn.2 hline.2]

/-! ## Measures -/

theorem crlf_take_append_drop (cs : List Char) (n : Nat) :
    crlf cs = crlf (cs.take n) ++ crlf (cs.drop n) := by
  rw [← crlf_append, List.take_append_drop]

theorem take_spread (cs : List Char) (n : Nat) :
    (crlf cs).take (spread cs n) = crlf (cs.take n) := by
  rw [crlf_take_append_drop cs n]
  exact List.take_left

theorem drop_spread (cs : List Char) (n : Nat) :
    (crlf cs).drop (spread cs n) = crlf (cs.drop n) := by
  rw [crlf_take_append_drop cs n]
  exact List.drop_left

theorem cons_take_spread {c : Char} (hc : c ≠ '\n') (cs : List Char) (n : Nat) :
    c :: (crlf cs).take (spread cs n) = crlf (c :: cs.take n) := by
  rw [take_spread, crlf_cons_of_ne hc]

@[simp] theorem spread_zero (cs : List Char) : spread cs 0 = 0 := by
  simp [spread]

theorem spread_newline (cs : List Char) (n : Nat) :
    spread ('\n' :: cs) (n + 1) = spread cs n + 2 := by
  simp [spread]

theorem spread_cons_of_ne {c : Char} (hc : c ≠ '\n') (cs : List Char) (n : Nat) :
    spread (c :: cs) (n + 1) = spread cs n + 1 := by
  simp [spread, crlf_cons_of_ne hc]

theorem spread_add (cs : List Char) (m n : Nat) :
    spread cs (m + n) = spread cs m + spread (cs.drop m) n := by
  rw [spread, List.take_add, crlf_append, List.length_append]
  rfl

theorem spread_takeWhile {p : Char → Bool} (hp : IgnoresReturn p) (cs : List Char) :
    ((crlf cs).takeWhile p).length = spread cs (cs.takeWhile p).length := by
  rw [takeWhile_crlf hp, spread,
    ← List.prefix_iff_eq_take.mp (List.takeWhile_prefix p)]

end Text

open Text

namespace Lexeme

/-! ## Words, variables and numbers -/

section

variable {tail : List Char → Nat} {after : Char → Bool} {alone : Nat}

theorem QualifiedTail.crlf_separator
    (h : QualifiedTail tail after alone) (halone : alone ≤ 2)
    (hreturn : after '\r' = false) (hline : after '\n' = false) {rest : List Char}
    (hrest : ∀ e cs, rest = e :: cs → tail (Text.crlf cs) = spread cs (tail cs)) :
    tail (Text.crlf (':' :: ':' :: rest)) =
      spread (':' :: ':' :: rest) (tail (':' :: ':' :: rest)) := by
  have hcolon : ':' ≠ '\n' := by decide
  rw [crlf_cons_of_ne hcolon, crlf_cons_of_ne hcolon]
  by_cases hafter : ∃ e ∈ rest.head?, after e = true
  · obtain ⟨e, hhead, he⟩ := hafter
    obtain ⟨cs, rfl⟩ := List.head?_eq_some_iff.mp hhead
    have hne : e ≠ '\n' := by
      rintro rfl
      exact Bool.false_ne_true (hline.symm.trans he)
    rw [crlf_cons_of_ne hne, h.separator e _ he, h.separator e _ he, hrest e cs rfl,
      spread_cons_of_ne hcolon, spread_cons_of_ne hcolon, spread_cons_of_ne hne]
  · have hopen : ∀ e ∈ rest.head?, after e = false := by
      simpa using hafter
    have hopen' : ∀ e ∈ (Text.crlf rest).head?, after e = false := by
      cases rest with
      | nil => simp
      | cons d rest =>
          by_cases hd : d = '\n'
          · simpa [hd] using hreturn
          · simpa [crlf_cons_of_ne hd] using hopen
    have halone' : spread (':' :: ':' :: rest) alone = alone := by
      interval_cases alone <;> simp [spread_cons_of_ne]
    rw [h.open_end _ hopen', h.open_end _ hopen, halone']

theorem QualifiedTail.crlf
    (h : QualifiedTail tail after alone) (halone : alone ≤ 2)
    (hreturn : after '\r' = false) (hline : after '\n' = false) (cs : List Char) :
    tail (crlf cs) = spread cs (tail cs) := by
  -- A separator takes the character behind it along, so the induction is on the length.
  induction hlength : cs.length using Nat.strong_induction_on generalizing cs with
  | _ length ih =>
      cases cs with
      | nil =>
          simp [h.nil]
      | cons c cs =>
          by_cases hnewline : c = '\n'
          · subst hnewline
            rw [crlf_newline, h.stop '\r' _ (by decide) (by simp),
              h.stop '\n' _ (by decide) (by simp), spread_zero]
          by_cases hc : isWordChar c = true
          · rw [crlf_cons_of_ne hnewline, h.word c _ hc, h.word c _ hc,
              spread_cons_of_ne hnewline, ih cs.length (by simp [← hlength]) cs rfl]
          rw [Bool.not_eq_true] at hc
          by_cases hsep : [':', ':'] <+: c :: cs
          · obtain ⟨rest, hrest⟩ := hsep
            rw [← hrest] at hlength ⊢
            apply h.crlf_separator halone hreturn hline
            rintro e cs rfl
            refine ih cs.length ?_ cs rfl
            simp only [← hlength, List.length_append, List.length_cons]
            omega
          · have hsep' : ¬ [':', ':'] <+: c :: Text.crlf cs := by
              rwa [← crlf_cons_of_ne hnewline, prefix_crlf_iff (by decide) (by decide)]
            rw [crlf_cons_of_ne hnewline, h.stop c _ hc hsep', h.stop c _ hc hsep, spread_zero]

end

theorem bareWordTail_crlf (cs : List Char) :
    bareWordTail (crlf cs) = spread cs (bareWordTail cs) :=
  bareWordTail_qualified.crlf le_rfl (by decide) (by decide) cs

theorem variableTail_crlf (cs : List Char) :
    variableTail (crlf cs) = spread cs (variableTail cs) :=
  variableTail_qualified.crlf (Nat.zero_le 2) (by decide) (by decide) cs

theorem ignoresReturn_isDigitOrUnderscore : IgnoresReturn isDigitOrUnderscore := by
  unfold IgnoresReturn
  decide

theorem fractionTail_crlf (cs : List Char) :
    fractionTail (crlf cs) = spread cs (fractionTail cs) := by
  match cs with
  | [] =>
      rfl
  | [c] =>
      by_cases hc : c = '\n'
      · subst hc
        rfl
      · simp [crlf_cons_of_ne hc, fractionTail]
  | c :: d :: rest =>
      by_cases hdot : c = '.'
      · subst hdot
        rw [crlf_cons_of_ne (by decide)]
        by_cases hd : d = '\n'
        · subst hd
          simp [fractionTail, Char.isDigit]
        · rw [crlf_cons_of_ne hd]
          simp only [fractionTail]
          split
          · rw [spread_takeWhile ignoresReturn_isDigitOrUnderscore, Nat.add_comm 2,
              Nat.add_comm 2, spread_cons_of_ne (by decide), spread_cons_of_ne hd]
          · rw [spread_zero]
      · have hzero : ∀ cs, fractionTail (c :: cs) = 0 := by
          intro cs
          unfold fractionTail
          split <;> simp_all
        by_cases hc : c = '\n'
        · subst hc
          rw [hzero, spread_zero]
          rfl
        · rw [crlf_cons_of_ne hc, hzero, hzero, spread_zero]

theorem numberTail_crlf (cs : List Char) : numberTail (crlf cs) = spread cs (numberTail cs) := by
  rw [numberTail_eq, numberTail_eq, spread_takeWhile ignoresReturn_isDigitOrUnderscore,
    drop_spread, fractionTail_crlf, spread_add]

/-! ## Quoted texts -/

theorem quotedTail_crlf
    {quote : Char} (hescape : quote ≠ '\\') (hreturn : quote ≠ '\r') (hline : quote ≠ '\n')
    (cs : List Char) :
    quotedTail quote (crlf cs) =
      ((quotedTail quote cs).1, spread cs (quotedTail quote cs).2) := by
  have hbreak : ∀ rest, quotedTail quote ('\n' :: rest) =
      ((quotedTail quote rest).1, (quotedTail quote rest).2 + 1) :=
    quotedTail_plain (by decide) hline.symm
  induction hlength : cs.length using Nat.strong_induction_on generalizing cs with
  | _ length ih =>
      match cs with
      | [] =>
          rfl
      | c :: cs =>
          by_cases hc : c = '\\'
          · subst hc
            rw [crlf_cons_of_ne (by decide)]
            match cs with
            | [] =>
                simp [quotedTail]
            | d :: rest =>
                have hrest := ih rest.length (by simp only [← hlength, List.length_cons]; omega)
                  rest rfl
                -- An escaped line break takes its carriage return along, and the line feed that
                -- is left over is an ordinary character.
                by_cases hd : d = '\n'
                · subst hd
                  rw [crlf_newline, quotedTail_escape, quotedTail_escape, hbreak, hrest]
                  simp only [spread_cons_of_ne (show '\\' ≠ '\n' by decide), spread_newline]
                · rw [crlf_cons_of_ne hd, quotedTail_escape, quotedTail_escape, hrest]
                  simp only [spread_cons_of_ne (show '\\' ≠ '\n' by decide),
                    spread_cons_of_ne hd]
          · have hrest := ih cs.length (by simp [← hlength]) cs rfl
            by_cases hquote : c = quote
            · subst hquote
              rw [crlf_cons_of_ne hline, quotedTail_close hescape, quotedTail_close hescape]
              simp [spread_cons_of_ne hline]
            · by_cases hnewline : c = '\n'
              · subst hnewline
                rw [crlf_newline, quotedTail_plain (by decide) hreturn.symm, hbreak, hbreak, hrest]
                simp only [spread_newline]
              · rw [crlf_cons_of_ne hnewline, quotedTail_plain hc hquote,
                  quotedTail_plain hc hquote, hrest]
                simp only [spread_cons_of_ne hnewline]

/-! ## Lexemes -/

theorem head?_crlf_colon (cs : List Char) :
    (crlf cs).head? = some ':' ↔ cs.head? = some ':' := by
  cases cs with
  | nil => rfl
  | cons c cs =>
      by_cases hc : c = '\n'
      · simp [hc]
      · simp [crlf_cons_of_ne hc]

theorem ofWord_crlf (word : String) (after : List Char) :
    ofWord word (crlf after) = ofWord word after := by
  simp only [ofWord, head?_crlf_colon]

theorem ofSigil_crlf (sigil : Char) (cs : List Char) :
    ofSigil sigil (crlf cs) = ((ofSigil sigil cs).1, spread cs (ofSigil sigil cs).2) := by
  cases cs with
  | nil =>
      rfl
  | cons c cs =>
      by_cases hnewline : c = '\n'
      · subst hnewline
        have hreturn : '\r' ∉ specialVariables := by decide
        have hline : '\n' ∉ specialVariables := by decide
        simp [ofSigil, isWordStart, hreturn, hline]
      · rw [crlf_cons_of_ne hnewline]
        simp only [ofSigil, variableTail_crlf]
        split
        · rw [Nat.add_comm 1, Nat.add_comm 1, spread_cons_of_ne hnewline]
        · split
          · simp [spread_cons_of_ne hnewline]
          · simp

/-- A word stays within its line, so it is the same in both forms. -/
theorem newline_not_mem_bareWord (cs : List Char) : '\n' ∉ cs.take (bareWordTail cs) := by
  intro hmem
  rcases (bareWordTail_spec cs).1 '\n' hmem with hchar | hcolon
  · exact absurd hchar (by decide)
  · exact absurd hcolon (by decide)

/-- Every lexeme but a comment is the same in both forms. -/
theorem scan_crlf {c : Char} (hline : c ≠ '\n') (hcomment : c ≠ '#') (cs : List Char) :
    scan c (crlf cs) = ((scan c cs).1, spread cs (scan c cs).2) := by
  by_cases hword : isWordStart c = true
  · rw [scan_of_isWordStart hword, scan_of_isWordStart hword]
    simp only [bareWordTail_crlf, take_spread, drop_spread, ofWord_crlf,
      crlf_of_not_mem (newline_not_mem_bareWord cs)]
  by_cases hquote : c = '"' ∨ c = Char.ofNat 0x27 ∨ c = Char.ofNat 0x60
  · have hne : c ≠ '\\' ∧ c ≠ '\r' := by
      rcases hquote with rfl | rfl | rfl <;> exact ⟨by decide, by decide⟩
    have htail := quotedTail_crlf hne.1 hne.2 hline cs
    have hscan : ∀ rest, scan c rest =
        (.token (if (quotedTail c rest).1 then .string else .punctuation),
          (quotedTail c rest).2) := by
      intro rest
      rcases hquote with rfl | rfl | rfl <;> rfl
    rw [hscan, hscan, htail]
  unfold scan
  simp only [hline, hcomment, hword, hquote, if_false, Bool.false_eq_true, numberTail_crlf,
    ofSigil_crlf]
  split_ifs <;> simp

end Lexeme

end MarkerDoc
