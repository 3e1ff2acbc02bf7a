import MarkerDoc.Token.Lexeme
import Mathlib

/-!
# Words and comments as lexemes

A word is taken whole: the lexeme that begins with a letter or an underscore reaches as far as the
grammar of qualified names allows, and what stands behind it cannot begin another word.  Both
directions are needed, the first to read a written name back, the second to know what the text of a
word token looks like.
-/

namespace MarkerDoc

def Token.Kind.isWord : Token.Kind → Bool
  | .package | .sub | .use | .bareWord => true
  | _ => false

theorem Token.Kind.isComment_of_isWord {kind : Token.Kind} (h : kind.isWord = true) :
    kind.isComment = false := by
  cases kind <;> simp [isWord, isComment] at h ⊢

namespace Lexeme

/-- What may follow the first character of a qualified name. -/
inductive NameTail : List Char → Prop
  | nil : NameTail []
  | char {c : Char} {cs : List Char} (hc : isWordChar c = true) (hcs : NameTail cs) :
      NameTail (c :: cs)
  | separator {c : Char} {cs : List Char} (hc : isWordStart c = true) (hcs : NameTail cs) :
      NameTail (':' :: ':' :: c :: cs)

/-- A qualified name: identifiers with `::` between them. -/
def IsName (name : String) : Prop :=
  ∃ c cs, name.toList = c :: cs ∧ isWordStart c = true ∧ NameTail cs

/-- A text that cannot continue a name. -/
def EndsName (rest : List Char) : Prop :=
  ∀ c, rest.head? = some c → isWordChar c = false ∧ c ≠ ':'

/-- A text that does not begin with a word. -/
def NoWordAhead (rest : List Char) : Prop :=
  ∀ c, rest.head? = some c → isWordStart c = false

theorem NameTail.of_forall {cs : List Char} (h : ∀ c ∈ cs, isWordChar c = true) : NameTail cs := by
  induction cs with
  | nil => exact .nil
  | cons c cs ih => exact .char (h c (by simp)) (ih fun d hd => h d (by simp [hd]))

theorem NameTail.append
    {cs ds : List Char} (hcs : NameTail cs) (hds : NameTail ds) : NameTail (cs ++ ds) := by
  induction hcs with
  | nil => exact hds
  | char hc _ ih => exact .char hc ih
  | separator hc _ ih => exact .separator hc ih

theorem endsName_cons
    {c : Char} {cs : List Char} (hchar : isWordChar c = false) (hcolon : c ≠ ':') :
    EndsName (c :: cs) := by
  intro d hd
  obtain rfl : c = d := by simpa using hd
  exact ⟨hchar, hcolon⟩

theorem isWordChar_of_isWordStart {c : Char} (h : isWordStart c = true) : isWordChar c = true := by
  simp only [isWordStart, isWordChar, Char.isAlphanum, Bool.or_eq_true] at h ⊢
  tauto

theorem ne_of_isWordStart
    {c d : Char} (hc : isWordStart c = true) (hd : isWordStart d = false) : c ≠ d := by
  rintro rfl
  exact Bool.false_ne_true (hd.symm.trans hc)

theorem toNat_of_isWordChar {c : Char} (h : isWordChar c = true) :
    (48 ≤ c.toNat ∧ c.toNat ≤ 57) ∨ (65 ≤ c.toNat ∧ c.toNat ≤ 90) ∨ c.toNat = 95 ∨
      (97 ≤ c.toNat ∧ c.toNat ≤ 122) := by
  simp only [isWordChar, Char.isAlphanum, Char.isAlpha, Char.isUpper, Char.isLower, Char.isDigit,
    Bool.or_eq_true, Bool.and_eq_true, decide_eq_true_eq, beq_iff_eq, UInt32.le_iff_toNat_le,
    ge_iff_le] at h
  rcases h with h | rfl
  · change ((65 ≤ c.toNat ∧ c.toNat ≤ 90) ∨ (97 ≤ c.toNat ∧ c.toNat ≤ 122)) ∨
      (48 ≤ c.toNat ∧ c.toNat ≤ 57) at h
    omega
  · decide

theorem isBlank_of_isWordChar {c : Char} (h : isWordChar c = true) : Text.isBlank c = false := by
  have hrange := toNat_of_isWordChar h
  simp only [Text.isBlank, Bool.or_eq_false_iff, Bool.and_eq_false_iff, decide_eq_false_iff_not,
    beq_eq_false_iff_ne]
  omega

theorem NameTail.mem
    {cs : List Char} (h : NameTail cs) {d : Char} (hd : d ∈ cs) :
    isWordChar d = true ∨ d = ':' := by
  induction h with
  | nil =>
      simp at hd
  | char hc _ ih =>
      rcases List.mem_cons.mp hd with rfl | hd
      · exact .inl hc
      · exact ih hd
  | separator hc _ ih =>
      simp only [List.mem_cons] at hd
      rcases hd with rfl | rfl | rfl | hd
      · exact .inr rfl
      · exact .inr rfl
      · exact .inl (isWordChar_of_isWordStart hc)
      · exact ih hd

theorem IsName.mem
    {name : String} (h : IsName name) {d : Char} (hd : d ∈ name.toList) :
    isWordChar d = true ∨ d = ':' := by
  obtain ⟨c, cs, hname, hc, hcs⟩ := h
  rw [hname] at hd
  rcases List.mem_cons.mp hd with rfl | hd
  · exact .inl (isWordChar_of_isWordStart hc)
  · exact hcs.mem hd

theorem IsName.isBlank_eq_false
    {name : String} (h : IsName name) {d : Char} (hd : d ∈ name.toList) :
    Text.isBlank d = false := by
  rcases h.mem hd with hchar | rfl
  · exact isBlank_of_isWordChar hchar
  · decide

theorem isName_package : IsName "package" :=
  ⟨'p', "ackage".toList, rfl, by decide, .of_forall (List.all_eq_true.mp (by decide))⟩

theorem isName_sub : IsName "sub" :=
  ⟨'s', "ub".toList, rfl, by decide, .of_forall (List.all_eq_true.mp (by decide))⟩

theorem isWordChar_colon : isWordChar ':' = false := by decide

/-- The recursion of `bareWordTail` without its look-ahead patterns. -/
theorem bareWordTail_cons (c : Char) (cs : List Char) :
    bareWordTail (c :: cs) =
      if isWordChar c then bareWordTail cs + 1
      else match c, cs with
        | ':', ':' :: e :: rest => if isWordStart e then bareWordTail rest + 3 else 2
        | ':', [':'] => 2
        | _, _ => 0 := by
  match cs with
  | [] =>
      simp [bareWordTail]
  | [d] =>
      by_cases hc : isWordChar c
      · simp [bareWordTail, hc]
      · by_cases hcd : c = ':' ∧ d = ':'
        · obtain ⟨rfl, rfl⟩ := hcd
          simp [bareWordTail, isWordChar_colon]
        · simp only [bareWordTail, hc, hcd, if_false, Bool.false_eq_true]
          split <;> simp_all
  | d :: e :: rest =>
      by_cases hc : isWordChar c
      · simp [bareWordTail, hc]
      · by_cases hcd : c = ':' ∧ d = ':'
        · obtain ⟨rfl, rfl⟩ := hcd
          simp [bareWordTail, isWordChar_colon]
        · simp only [bareWordTail, hc, hcd, if_false, Bool.false_eq_true]
          split <;> simp_all

theorem bareWordTail_append
    {cs rest : List Char} (hcs : NameTail cs) (hrest : EndsName rest) :
    bareWordTail (cs ++ rest) = cs.length := by
  induction hcs with
  | nil =>
      cases rest with
      | nil =>
          simp [bareWordTail]
      | cons c rest =>
          obtain ⟨hchar, hcolon⟩ := hrest c rfl
          rw [List.nil_append, bareWordTail_cons, if_neg (by simp [hchar])]
          split <;> simp_all
  | char hc _ ih =>
      rw [List.cons_append, bareWordTail_cons, if_pos hc, ih, List.length_cons]
  | separator hc _ ih =>
      simp only [List.cons_append]
      rw [bareWordTail_cons, if_neg (by simp [isWordChar_colon])]
      simp [hc, ih]

/-- What a word takes are word characters and colons, and no word begins behind it. -/
theorem bareWordTail_spec (cs : List Char) :
    (∀ d ∈ cs.take (bareWordTail cs), isWordChar d = true ∨ d = ':') ∧
      NoWordAhead (cs.drop (bareWordTail cs)) := by
  induction hlength : cs.length using Nat.strong_induction_on generalizing cs with
  | _ length ih =>
      cases cs with
      | nil =>
          simp [bareWordTail, NoWordAhead]
      | cons c cs =>
          rw [bareWordTail_cons]
          by_cases hc : isWordChar c
          · obtain ⟨htake, hdrop⟩ := ih cs.length (by simp [← hlength]) cs rfl
            simp only [hc, if_true, List.take_succ_cons, List.drop_succ_cons]
            refine ⟨?_, hdrop⟩
            rintro d (_ | ⟨_, hd⟩)
            · exact .inl hc
            · exact htake d hd
          · have hstart : isWordStart c = false := by
              rw [← Bool.not_eq_true]
              exact fun h => hc (isWordChar_of_isWordStart h)
            simp only [hc, if_false, Bool.false_eq_true]
            split
            · next e rest =>
                split
                · next he =>
                    obtain ⟨htake, hdrop⟩ :=
                      ih rest.length (by simp only [← hlength, List.length_cons]; omega) rest rfl
                    simp only [List.take_succ_cons, List.drop_succ_cons]
                    refine ⟨?_, hdrop⟩
                    rintro d (_ | ⟨_, _ | ⟨_, _ | ⟨_, hd⟩⟩⟩)
                    · exact .inr rfl
                    · exact .inr rfl
                    · exact .inl (isWordChar_of_isWordStart he)
                    · exact htake d hd
                · next he =>
                    simpa [NoWordAhead] using he
            · simp [NoWordAhead]
            · simpa [NoWordAhead] using hstart

/-! ## The lexeme at the head of a text -/

theorem scan_of_isWordStart {c : Char} (h : isWordStart c = true) (cs : List Char) :
    scan c cs =
      (ofWord (String.ofList (c :: cs.take (bareWordTail cs))) (cs.drop (bareWordTail cs)),
        bareWordTail cs) := by
  have hspacing : isSpacing c = false := by
    rw [← Bool.not_eq_true]
    intro hs
    simp only [isSpacing, Bool.or_eq_true, beq_iff_eq] at hs
    rcases hs with ((rfl | rfl) | rfl) | rfl <;> revert h <;> decide
  have hnewline : c ≠ '\n' := ne_of_isWordStart h (by decide)
  have hhash : c ≠ '#' := ne_of_isWordStart h (by decide)
  simp [scan, hspacing, hnewline, hhash, h]

theorem scan_name
    {c : Char} {cs rest : List Char} (hc : isWordStart c = true) (hcs : NameTail cs)
    (hrest : EndsName rest) :
    scan c (cs ++ rest) = (ofWord (String.ofList (c :: cs)) rest, cs.length) := by
  rw [scan_of_isWordStart hc, bareWordTail_append hcs hrest]
  simp

theorem scan_comment (cs : List Char) :
    scan '#' cs = (.token (ofComment cs), (cs.takeWhile (· != '\n')).length) := by
  have hspacing : isSpacing '#' = false := by decide
  simp [scan, hspacing]

def isWord : Lexeme → Bool
  | .endMarker => true
  | .token kind => kind.isWord
  | _ => false

theorem isWord_ofWord (word : String) (after : List Char) : (ofWord word after).isWord = true := by
  unfold ofWord
  split
  · rfl
  · split <;> rfl

theorem isWord_ofComment (cs : List Char) : (ofComment cs).isWord = false := by
  unfold ofComment
  split <;> rfl

theorem isComment_ofComment (cs : List Char) : (ofComment cs).isComment = true := by
  unfold ofComment
  split <;> rfl

theorem isWord_ofSigil (sigil : Char) (cs : List Char) : (ofSigil sigil cs).1.isWord = false := by
  unfold ofSigil
  split
  · rfl
  · split_ifs <;> rfl

/-- A lexeme is a word exactly when a word begins at the head of the text. -/
theorem isWord_scan (c : Char) (cs : List Char) : (scan c cs).1.isWord = isWordStart c := by
  cases hc : isWordStart c with
  | true =>
      rw [scan_of_isWordStart hc]
      exact isWord_ofWord _ _
  | false =>
      unfold scan
      simp only [hc, Bool.false_eq_true, if_false]
      split_ifs
      · rfl
      · rfl
      · exact isWord_ofComment cs
      · rfl
      · exact isWord_ofSigil c cs
      all_goals rfl

def isComment : Lexeme → Bool
  | .token kind => kind.isComment
  | _ => false

theorem isComment_of_isWord {lexeme : Lexeme} (h : lexeme.isWord = true) :
    lexeme.isComment = false := by
  cases lexeme with
  | token kind => exact Token.Kind.isComment_of_isWord h
  | blank | newline | endMarker => rfl

/-- Only a number sign begins a comment. -/
theorem isComment_scan {c : Char} (hc : c ≠ '#') (cs : List Char) :
    (scan c cs).1.isComment = false := by
  by_cases hword : isWordStart c = true
  · exact isComment_of_isWord ((isWord_scan c cs).trans hword)
  have hsigil : (ofSigil c cs).1.isComment = false := by
    unfold ofSigil
    split
    · rfl
    · split_ifs <;> rfl
  unfold scan
  simp only [hc, hword, if_false, Bool.false_eq_true]
  split_ifs
  · rfl
  · rfl
  · rfl
  · exact hsigil
  all_goals rfl

theorem ofWord_eq_package
    {word : String} {after : List Char} (h : ofWord word after = .token .package) :
    word = "package" := by
  revert h
  unfold ofWord
  split
  · simp
  · split <;> simp

theorem ofWord_eq_sub
    {word : String} {after : List Char} (h : ofWord word after = .token .sub) : word = "sub" := by
  revert h
  unfold ofWord
  split
  · simp
  · split <;> simp

/-! ## The patterns unfolded -/

/-- What the tails of bare words and of variable names have in common: they take word characters,
and a separator with what may come after it.  A separator with nothing of the kind behind it counts
for `alone` characters. -/
structure QualifiedTail (tail : List Char → Nat) (after : Char → Bool) (alone : Nat) : Prop where
  nil : tail [] = 0
  word : ∀ c cs, isWordChar c = true → tail (c :: cs) = tail cs + 1
  separator : ∀ e cs, after e = true → tail (':' :: ':' :: e :: cs) = tail cs + 3
  open_end : ∀ cs, (∀ e ∈ cs.head?, after e = false) → tail (':' :: ':' :: cs) = alone
  stop : ∀ c cs, isWordChar c = false → ¬ [':', ':'] <+: c :: cs → tail (c :: cs) = 0

theorem bareWordTail_qualified : QualifiedTail bareWordTail isWordStart 2 := by
  constructor
  · rfl
  · intro c cs hc
    rw [bareWordTail_cons, if_pos hc]
  · intro e cs he
    simp [bareWordTail, isWordChar_colon, he]
  · intro cs hcs
    cases cs with
    | nil => simp [bareWordTail, isWordChar_colon]
    | cons e cs => simp [bareWordTail, isWordChar_colon, hcs e rfl]
  · intro c cs hc hsep
    rw [bareWordTail_cons, if_neg (by simp [hc])]
    split
    · simp at hsep
    · simp at hsep
    · rfl

theorem variableTail_qualified : QualifiedTail variableTail isWordChar 0 := by
  constructor
  · rfl
  · intro c cs hc
    match cs with
    | [] => simp [variableTail, hc]
    | [d] => simp [variableTail, hc]
    | d :: e :: rest => simp [variableTail, hc]
  · intro e cs he
    simp [variableTail, isWordChar_colon, he]
  · intro cs hcs
    cases cs with
    | nil => simp [variableTail, isWordChar_colon]
    | cons e cs => simp [variableTail, isWordChar_colon, hcs e rfl]
  · intro c cs hc hsep
    match cs with
    | [] => simp [variableTail, hc]
    | [d] => simp [variableTail, hc]
    | d :: e :: rest =>
        have hcolons : ¬ (c = ':' ∧ d = ':' ∧ isWordChar e = true) := by
          rintro ⟨rfl, rfl, -⟩
          simp at hsep
        simp [variableTail, hc, hcolons]

/-- Word characters in front of a text that cannot continue a name are all that the tail takes. -/
theorem QualifiedTail.eq_length
    {tail : List Char → Nat} {after : Char → Bool} {alone : Nat}
    (h : QualifiedTail tail after alone) {run rest : List Char}
    (hrun : ∀ c ∈ run, isWordChar c = true) (hrest : EndsName rest) :
    tail (run ++ rest) = run.length := by
  induction run with
  | nil =>
      cases rest with
      | nil =>
          exact h.nil
      | cons c rest =>
          obtain ⟨hchar, hcolon⟩ := hrest c rfl
          exact h.stop c rest hchar (by simp [Ne.symm hcolon])
  | cons c run ih =>
      obtain ⟨hc, hrun⟩ := List.forall_mem_cons.mp hrun
      rw [List.cons_append, h.word _ _ hc, ih hrun, List.length_cons]

/-- The length of the fraction at the head of a text. -/
def fractionTail : List Char → Nat
  | '.' :: d :: rest => if d.isDigit then 2 + (rest.takeWhile isDigitOrUnderscore).length else 0
  | _ => 0

theorem numberTail_eq (cs : List Char) :
    numberTail cs =
      (cs.takeWhile isDigitOrUnderscore).length +
        fractionTail (cs.drop (cs.takeWhile isDigitOrUnderscore).length) := by
  simp only [numberTail]
  generalize (cs.takeWhile isDigitOrUnderscore).length = whole
  generalize cs.drop whole = rest
  split
  · simp only [fractionTail]
    split <;> omega
  · next hplain =>
      have hzero : fractionTail rest = 0 := by
        unfold fractionTail
        split
        · next d tail => exact absurd rfl (hplain d tail)
        · rfl
      rw [hzero, Nat.add_zero]

theorem quotedTail_escape (quote d : Char) (rest : List Char) :
    quotedTail quote ('\\' :: d :: rest) =
      ((quotedTail quote rest).1, (quotedTail quote rest).2 + 2) := by
  simp [quotedTail]

theorem quotedTail_plain
    {quote c : Char} (hescape : c ≠ '\\') (hquote : c ≠ quote) (cs : List Char) :
    quotedTail quote (c :: cs) = ((quotedTail quote cs).1, (quotedTail quote cs).2 + 1) := by
  cases cs <;> simp [quotedTail, hescape, hquote]

theorem quotedTail_close {quote : Char} (hescape : quote ≠ '\\') (cs : List Char) :
    quotedTail quote (quote :: cs) = (true, 1) := by
  cases cs <;> simp [quotedTail, hescape]

end Lexeme

end MarkerDoc
