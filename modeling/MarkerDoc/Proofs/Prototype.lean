import MarkerDoc.Proofs.RoutineHeader
import MarkerDoc.Proofs.Spelling

/-!
# Prototypes

A prototype is a list of sigils in parentheses.  The lexer does not know it and takes pairs of its
characters for variables wherever it can: `$$`, `$;`, `$@`, and also `$)` at the end.  Reading from
the left, a dollar sign takes the next character along unless it was itself taken, so what becomes
of a semicolon is decided by the run of dollar signs in front of it.  If that run has odd length the
semicolon is part of a variable, and otherwise it is a token of its own, which ends the routine.
-/

namespace MarkerDoc

/-! ## The characters of a prototype -/

namespace Prototype

def characters : List Char :=
  "$@%&*\\;+_[]".toList

end Prototype

/-- A prototype without its parentheses. -/
def IsPrototype (p : List Char) : Prop :=
  ∀ c ∈ p, c ∈ Prototype.characters ∨ c ∈ Token.gapCharacters

instance (p : List Char) : Decidable (IsPrototype p) :=
  decidable_of_iff
    (p.all (fun c => decide (c ∈ Prototype.characters ∨ c ∈ Token.gapCharacters)) = true)
    (by simp [IsPrototype])

namespace Prototype

/-- The dollar signs at the end of a text. -/
def dollarsAtEnd (cs : List Char) : Nat :=
  (cs.rtakeWhile (· == '$')).length

/-- Every semicolon is the second character of a variable. -/
def SemicolonsFused (p : List Char) : Prop :=
  ∀ front rest, p = front ++ ';' :: rest → Odd (dollarsAtEnd front)

theorem dollarsAtEnd_cons (x : Char) (cs : List Char) :
    dollarsAtEnd (x :: cs) =
      if (∀ c ∈ cs, c = '$') ∧ x = '$' then cs.length + 1 else dollarsAtEnd cs := by
  unfold dollarsAtEnd List.rtakeWhile
  rw [List.reverse_cons, List.takeWhile_append]
  by_cases hall : ∀ c ∈ cs, c = '$'
  · have htake : cs.reverse.takeWhile (· == '$') = cs.reverse := by
      apply List.takeWhile_eq_self_iff.mpr
      simpa using hall
    by_cases hx : x = '$'
    · simpa [htake, hx] using hall
    · simp [htake, hx]
  · have htake : (cs.reverse.takeWhile (· == '$')).length ≠ cs.reverse.length := by
      intro hlength
      apply hall
      have hself := (List.takeWhile_prefix _).eq_of_length hlength
      have hmem := List.takeWhile_eq_self_iff.mp hself
      simpa using hmem
    rw [if_neg htake, if_neg (by tauto)]

theorem dollarsAtEnd_of_forall {cs : List Char} (h : ∀ c ∈ cs, c = '$') :
    dollarsAtEnd cs = cs.length := by
  cases cs with
  | nil =>
      rfl
  | cons c cs =>
      obtain ⟨hc, hcs⟩ := List.forall_mem_cons.mp h
      rw [dollarsAtEnd_cons, if_pos ⟨hcs, hc⟩, List.length_cons]

theorem semicolonsFused_of_not_mem {p : List Char} (h : ';' ∉ p) : SemicolonsFused p := by
  rintro front rest rfl
  simp at h

theorem not_semicolonsFused_cons (p : List Char) : ¬ SemicolonsFused (';' :: p) := by
  intro h
  exact absurd (h [] p rfl) (by decide)

theorem semicolonsFused_cons_iff {x : Char} (hdollar : x ≠ '$') (hx : x ≠ ';') (p : List Char) :
    SemicolonsFused (x :: p) ↔ SemicolonsFused p := by
  have hcount : ∀ front, dollarsAtEnd (x :: front) = dollarsAtEnd front := by
    intro front
    rw [dollarsAtEnd_cons, if_neg fun h => hdollar h.2]
  constructor
  · rintro h front rest rfl
    rw [← hcount]
    exact h (x :: front) rest rfl
  · intro h front rest hsplit
    cases front with
    | nil =>
        exact absurd (List.cons.inj hsplit).1 hx
    | cons y front =>
        obtain ⟨rfl, hp⟩ := List.cons.inj hsplit
        rw [hcount]
        exact h front rest hp

/-- A dollar sign and what it takes along count for nothing behind them. -/
theorem semicolonsFused_dollar_iff (x : Char) (p : List Char) :
    SemicolonsFused ('$' :: x :: p) ↔ SemicolonsFused p := by
  have hparity : ∀ front,
      Odd (dollarsAtEnd ('$' :: x :: front)) ↔ Odd (dollarsAtEnd front) := by
    intro front
    by_cases hall : (∀ c ∈ front, c = '$') ∧ x = '$'
    · obtain ⟨hfront, rfl⟩ := hall
      rw [dollarsAtEnd_cons, if_pos ⟨by simpa using hfront, rfl⟩, dollarsAtEnd_of_forall hfront,
        List.length_cons, Nat.add_assoc]
      simp [Nat.odd_add]
    · rw [dollarsAtEnd_cons, if_neg, dollarsAtEnd_cons, if_neg hall]
      rintro ⟨hmem, -⟩
      obtain ⟨hx, hfront⟩ := List.forall_mem_cons.mp hmem
      exact hall ⟨hfront, hx⟩
  constructor
  · rintro h front rest rfl
    rw [← hparity]
    exact h ('$' :: x :: front) rest rfl
  · intro h front rest hsplit
    rcases front with _ | ⟨a, _ | ⟨b, front⟩⟩
    · exact absurd (List.cons.inj hsplit).1 (by decide)
    · obtain ⟨rfl, -⟩ := List.cons.inj hsplit
      decide
    · obtain ⟨rfl, htail⟩ := List.cons.inj hsplit
      obtain ⟨rfl, hp⟩ := List.cons.inj htail
      rw [hparity]
      exact h front rest hp

theorem semicolonsFused_append_iff
    {run : List Char} (hrun : ∀ c ∈ run, Lexeme.isWordChar c = true) (p : List Char) :
    SemicolonsFused (run ++ p) ↔ SemicolonsFused p := by
  induction run with
  | nil =>
      rfl
  | cons c run ih =>
      obtain ⟨hc, hrest⟩ := List.forall_mem_cons.mp hrun
      have hne : ∀ d, Lexeme.isWordChar d = false → c ≠ d := by
        rintro d hd rfl
        exact Bool.false_ne_true (hd.symm.trans hc)
      rw [List.cons_append,
        semicolonsFused_cons_iff (hne _ (by decide)) (hne _ (by decide)), ih hrest]

/-! ## Lexemes of a prototype -/

theorem not_isBlank_of_mem {c : Char} (h : c ∈ characters) : Text.isBlank c = false := by
  have hall : characters.all (fun c => !Text.isBlank c) = true := by decide
  simpa using List.all_eq_true.mp hall c h

theorem not_paren_of_mem {c : Char} (h : c ∈ characters) : c ≠ '(' ∧ c ≠ ')' :=
  ⟨ne_of_mem_of_not_mem h (by decide), ne_of_mem_of_not_mem h (by decide)⟩

theorem mem_characters_of_isWordChar
    {p : List Char} (hp : IsPrototype p) {c : Char} (hmem : c ∈ p)
    (hc : Lexeme.isWordChar c = true) : c ∈ characters := by
  rcases hp c hmem with hc' | hgap
  · exact hc'
  · have hblank := Token.isBlank_of_mem_gapCharacters hgap
    rw [Lexeme.isBlank_of_isWordChar hc] at hblank
    cases hblank

/-- A word that is made of characters of a prototype is an ordinary word. -/
theorem ofWord_eq_bareWord
    {word : String} (h : ∀ c ∈ word.toList, c ∈ characters) (after : List Char) :
    Lexeme.ofWord word after = .token .bareWord := by
  unfold Lexeme.ofWord
  split
  · rfl
  · split
    · exact absurd (h 'p' (by decide)) (by decide)
    · exact absurd (h 's' (by decide)) (by decide)
    · exact absurd (h 'u' (by decide)) (by decide)
    · exact absurd (h 'E' (by decide)) (by decide)
    · exact absurd (h 'D' (by decide)) (by decide)
    · rfl

theorem continuation?_eq_none
    {t : Token} (h : ∀ c ∈ t.text.toList, c ∈ characters) (before : Option Char)
    (previous : Option Token) (after : List Char) :
    Quoted.continuation? before previous t after = none := by
  have hall : ("/" :: Quoted.operators).all
      (fun word => word.toList.any fun c => !characters.contains c) = true := by
    decide
  have hnot : t.text ∉ "/" :: Quoted.operators := by
    intro hmem
    obtain ⟨c, hc, hcharacters⟩ := List.any_eq_true.mp (List.all_eq_true.mp hall _ hmem)
    simp [h c hc] at hcharacters
  rw [List.mem_cons, not_or] at hnot
  unfold Quoted.continuation?
  split
  · rw [if_neg (by simpa using hnot.2)]
  · rw [if_neg fun hboth => hnot.1 hboth.1]
  · rfl

/-- What the lexeme at the head of a prototype can be: a piece of the prototype that has no
separate semicolon, a semicolon, or a last dollar sign with the parenthesis behind it. -/
inductive Head (c : Char) (p after : List Char) : Prop
  | piece {kind : Token.Kind} {n : Nat}
      (hscan : Lexeme.scan c (p ++ ')' :: after) = (.token kind, n)) (hn : n ≤ p.length)
      (hkind : kind = .punctuation ∨ kind = .variableName ∨ kind = .bareWord)
      (hpiece : ∀ d ∈ c :: p.take n, d ∈ characters)
      (hfused : SemicolonsFused (c :: p) ↔ SemicolonsFused (p.drop n))
  | semicolon (hc : c = ';')
      (hscan : Lexeme.scan c (p ++ ')' :: after) = (.token .semicolon, 0))
  | close (hc : c = '$') (hp : p = [])
      (hscan : Lexeme.scan c (p ++ ')' :: after) = (.token .variableName, 1))

/-- Word characters at the head of a prototype, and what is left of it. -/
theorem exists_word_run
    {p : List Char} (hp : IsPrototype p) (after : List Char) :
    ∃ run rest, p = run ++ rest ∧ (∀ c ∈ run, Lexeme.isWordChar c = true) ∧
      (∀ c ∈ run, c ∈ characters) ∧ Lexeme.EndsName (rest ++ ')' :: after) := by
  refine ⟨p.takeWhile Lexeme.isWordChar, p.dropWhile Lexeme.isWordChar,
    List.takeWhile_append_dropWhile.symm, fun c hc => List.mem_takeWhile_imp hc, ?_, ?_⟩
  · intro c hc
    exact mem_characters_of_isWordChar hp ((List.takeWhile_prefix _).subset hc)
      (List.mem_takeWhile_imp hc)
  · intro c hc
    cases hrest : p.dropWhile Lexeme.isWordChar with
    | nil =>
        rw [hrest] at hc
        obtain rfl : ')' = c := by simpa using hc
        decide
    | cons d rest =>
        rw [hrest] at hc
        obtain rfl : d = c := by simpa using hc
        have hmem : d ∈ p := (List.dropWhile_suffix _).subset (by rw [hrest]; simp)
        have hchar : Lexeme.isWordChar d = false := by
          have hhead := List.head?_dropWhile_not Lexeme.isWordChar p
          rw [hrest] at hhead
          simpa using hhead
        refine ⟨hchar, ?_⟩
        rintro rfl
        rcases hp ':' hmem with hcolon | hcolon
        · exact absurd hcolon (by decide)
        · exact absurd hcolon (by decide)

/-- A sigil in front of a word character, and the word behind it. -/
theorem ofSigil_word
    (sigil : Char) {x : Char} {p : List Char} (hp : IsPrototype (x :: p))
    (hx : Lexeme.isWordStart x = true) (after : List Char) :
    ∃ run rest, p = run ++ rest ∧ (∀ c ∈ x :: run, Lexeme.isWordChar c = true) ∧
      (∀ c ∈ x :: run, c ∈ characters) ∧
      Lexeme.ofSigil sigil (x :: p ++ ')' :: after) = (.token .variableName, run.length + 1) := by
  have hchar := Lexeme.isWordChar_of_isWordStart hx
  obtain ⟨run, rest, rfl, hword, hcharacters, hrest⟩ :=
    exists_word_run (fun c hc => hp c (List.mem_cons_of_mem _ hc)) after
  refine ⟨run, rest, rfl, List.forall_mem_cons.mpr ⟨hchar, hword⟩,
    List.forall_mem_cons.mpr
      ⟨mem_characters_of_isWordChar hp List.mem_cons_self hchar, hcharacters⟩, ?_⟩
  simp only [List.cons_append, List.append_assoc, Lexeme.ofSigil, hx, if_true]
  rw [Lexeme.variableTail_qualified.eq_length hword hrest, Nat.add_comm]

theorem Head.single
    {c : Char} {p after : List Char} (hc : c ∈ characters)
    (hscan : Lexeme.scan c (p ++ ')' :: after) = (.token .punctuation, 0))
    (hfused : SemicolonsFused (c :: p) ↔ SemicolonsFused p) : Head c p after :=
  .piece hscan (Nat.zero_le _) (.inl rfl) (by simpa using hc) hfused

theorem head_of_underscore {p : List Char} (hp : IsPrototype p) (after : List Char) :
    Head '_' p after := by
  have hstart : Lexeme.isWordStart '_' = true := by decide
  obtain ⟨run, rest, rfl, hword, hcharacters, hrest⟩ := exists_word_run hp after
  have hpiece : ∀ d ∈ '_' :: run, d ∈ characters :=
    List.forall_mem_cons.mpr ⟨by decide, hcharacters⟩
  have htail : Lexeme.bareWordTail (run ++ (rest ++ ')' :: after)) = run.length :=
    Lexeme.bareWordTail_qualified.eq_length hword hrest
  apply @Head.piece '_' _ after .bareWord run.length
  · rw [List.append_assoc, Lexeme.scan_of_isWordStart hstart, htail, List.take_left,
      ofWord_eq_bareWord (by simpa using hpiece)]
  · simp
  · exact .inr (.inr rfl)
  · simpa using hpiece
  · rw [semicolonsFused_cons_iff (by decide) (by decide), semicolonsFused_append_iff hword,
      List.drop_left]

/-- The three sigils that name only what is named by a word. -/
theorem head_of_sigil
    {c : Char} (hc : c = '@' ∨ c = '%' ∨ c = '&') {p : List Char} (hp : IsPrototype p)
    (after : List Char) : Head c p after := by
  have hcharacters : c ∈ characters := by
    rcases hc with rfl | rfl | rfl <;> decide
  have hdollar : c ≠ '$' := by
    rcases hc with rfl | rfl | rfl <;> decide
  have hsemicolon : c ≠ ';' := by
    rcases hc with rfl | rfl | rfl <;> decide
  have hscan : ∀ cs, Lexeme.scan c cs = Lexeme.ofSigil c cs := by
    intro cs
    rcases hc with rfl | rfl | rfl <;> rfl
  have hsingle : Lexeme.ofSigil c (p ++ ')' :: after) = (.token .punctuation, 0) →
      Head c p after := fun heq =>
    .single hcharacters ((hscan _).trans heq) (semicolonsFused_cons_iff hdollar hsemicolon p)
  cases p with
  | nil =>
      apply hsingle
      simp [Lexeme.ofSigil, hdollar, show Lexeme.isWordStart ')' = false by decide]
  | cons x p =>
      cases hx : Lexeme.isWordStart x with
      | false =>
          apply hsingle
          simp [Lexeme.ofSigil, hdollar, hx]
      | true =>
          obtain ⟨run, rest, rfl, hword, hpiece, heq⟩ := ofSigil_word c hp hx after
          apply Head.piece ((hscan _).trans heq)
          · simp
          · exact .inr (.inl rfl)
          · simpa using ⟨hcharacters, List.forall_mem_cons.mp hpiece⟩
          · rw [semicolonsFused_cons_iff hdollar hsemicolon, ← List.cons_append,
              semicolonsFused_append_iff hword]
            simp

theorem head_of_dollar {p : List Char} (hp : IsPrototype p) (after : List Char) :
    Head '$' p after := by
  have hscan : ∀ cs, Lexeme.scan '$' cs = Lexeme.ofSigil '$' cs := fun cs => rfl
  cases p with
  | nil =>
      apply Head.close rfl rfl
      simp [hscan, Lexeme.ofSigil, show Lexeme.isWordStart ')' = false by decide,
        show ')' ∈ Lexeme.specialVariables by decide]
  | cons x p =>
      cases hx : Lexeme.isWordStart x with
      | true =>
          obtain ⟨run, rest, rfl, hword, hpiece, heq⟩ := ofSigil_word '$' hp hx after
          apply Head.piece ((hscan _).trans heq)
          · simp
          · exact .inr (.inl rfl)
          · simpa using ⟨by decide, List.forall_mem_cons.mp hpiece⟩
          · rw [semicolonsFused_dollar_iff,
              semicolonsFused_append_iff (List.forall_mem_cons.mp hword).2]
            simp
      | false =>
          by_cases hspecial : x ∈ Lexeme.specialVariables
          · have hmem : x ∈ characters := by
              rcases hp x List.mem_cons_self with hmem | hgap
              · exact hmem
              · exfalso
                have hall : Token.gapCharacters.all
                    (fun c => !Lexeme.specialVariables.contains c) = true := by decide
                simpa [hspecial] using List.all_eq_true.mp hall x hgap
            apply @Head.piece '$' _ after .variableName 1
            · simp [hscan, Lexeme.ofSigil, hx, hspecial]
            · simp
            · exact .inr (.inl rfl)
            · simpa using ⟨by decide, hmem⟩
            · rw [semicolonsFused_dollar_iff, List.drop_one, List.tail_cons]
          · have hne : ∀ d ∈ Lexeme.specialVariables, x ≠ d := fun d hd =>
              (ne_of_mem_of_not_mem hd hspecial).symm
            apply Head.single (by decide)
            · simp [hscan, Lexeme.ofSigil, hx, hspecial]
            · rw [semicolonsFused_dollar_iff,
                semicolonsFused_cons_iff (hne _ (by decide)) (hne _ (by decide))]

theorem head_of_mem
    {c : Char} (hc : c ∈ characters) {p : List Char} (hp : IsPrototype p) (after : List Char) :
    Head c p after := by
  have hcases : c = '$' ∨ c = ';' ∨ c = '_' ∨ (c = '@' ∨ c = '%' ∨ c = '&') ∨
      c ∈ ['*', '\\', '+', '[', ']'] := by
    have hall : characters.all (fun c => decide (c = '$' ∨ c = ';' ∨ c = '_' ∨
        (c = '@' ∨ c = '%' ∨ c = '&') ∨ c ∈ ['*', '\\', '+', '[', ']'])) = true := by decide
    exact of_decide_eq_true (List.all_eq_true.mp hall c hc)
  rcases hcases with rfl | rfl | rfl | hsigil | hmark
  · exact head_of_dollar hp after
  · exact .semicolon rfl rfl
  · exact head_of_underscore hp after
  · exact head_of_sigil hsigil hp after
  · have hscan : ∀ cs, Lexeme.scan c cs = (.token .punctuation, 0) := by
      intro cs
      simp only [List.mem_cons, List.not_mem_nil, or_false] at hmark
      rcases hmark with rfl | rfl | rfl | rfl | rfl <;> rfl
    exact .single hc (hscan _) (semicolonsFused_cons_iff
      (ne_of_mem_of_not_mem hmark (by decide)) (ne_of_mem_of_not_mem hmark (by decide)) p)

/-! ## The tokens of a prototype -/

/-- A token inside the parentheses of a prototype. -/
structure IsPiece (t : Token) : Prop where
  kind : t.kind = .punctuation ∨ t.kind = .variableName ∨ t.kind = .bareWord ∨
    t.kind = .semicolon
  nonempty : t.text ≠ ""
  chars : ∀ c ∈ t.text.toList, c ∈ characters

theorem IsPiece.isComment_eq_false {t : Token} (h : IsPiece t) : t.kind.isComment = false := by
  rcases h.kind with hkind | hkind | hkind | hkind <;> rw [hkind] <;> rfl

theorem IsPiece.isBrace_eq_false {t : Token} (h : IsPiece t) : Scan.isBrace t = false := by
  rcases h.kind with hkind | hkind | hkind | hkind <;>
    simp [Scan.isBrace, Scan.isLeftBrace, Scan.isRightBrace, hkind]

theorem IsPiece.parensAfter_eq {t : Token} (h : IsPiece t) (parens : Nat) :
    Scan.parensAfter parens t = parens := by
  have hlast : ∀ c, t.text.toList.getLast? = some c → c ≠ '(' ∧ c ≠ ')' := by
    intro c hc
    exact not_paren_of_mem (h.chars c (List.mem_of_getLast? hc))
  have hopens : t.text.toList.getLast? ≠ some '(' := fun heq => (hlast _ heq).1 rfl
  have hcloses : t.text.toList.getLast? ≠ some ')' := fun heq => (hlast _ heq).2 rfl
  simp [Scan.parensAfter, Scan.opensParen, Scan.closesParen, hopens, hcloses]

open Token in
/-- What the lexer makes of a prototype, from behind its opening parenthesis through the closing
one. -/
structure Reads (cursor : Cursor) (p after : List Char) (inner : List Token) (close : Token)
    (next : Cursor) : Prop where
  tokens : lexAt cursor (p ++ ')' :: after) = inner ++ close :: lexAt next after
  spells : Spells cursor.offset (inner ++ [close]) (p ++ [')'])
  pieces : ∀ t ∈ inner, IsPiece t
  closes : Scan.closesParen close = true
  semicolons : SemicolonsFused p ↔ ∀ t ∈ inner, t.kind ≠ .semicolon
  offset : next.offset = cursor.offset + byteSize (p ++ [')'])

section

open Token

variable {cursor next : Cursor} {p after : List Char} {inner : List Token} {close : Token}

theorem Reads.behind_blank
    {c : Char} (hc : c ∈ gapCharacters) {here : Cursor}
    (hoffset : here.offset = cursor.offset + c.utf8Size)
    (htokens : lexAt cursor (c :: (p ++ ')' :: after)) = lexAt here (p ++ ')' :: after))
    (h : Reads here p after inner close next) : Reads cursor (c :: p) after inner close next := by
  refine ⟨htokens.trans h.tokens, .blank hc (hoffset ▸ h.spells), h.pieces, h.closes, ?_, ?_⟩
  · rw [semicolonsFused_cons_iff (ne_of_mem_of_not_mem hc (by decide))
      (ne_of_mem_of_not_mem hc (by decide)), h.semicolons]
  · rw [h.offset, hoffset, List.cons_append, byteSize_cons, Nat.add_assoc]

/-- A token in front of what has been read.  The first character may be anything but a sign that
opens documentation. -/
theorem Reads.behind_piece
    {c : Char} {kind : Token.Kind} {n : Nat}
    (hscan : Lexeme.scan c (p ++ ')' :: after) = (.token kind, n)) (hn : n ≤ p.length)
    (hkind : kind = .punctuation ∨ kind = .variableName ∨ kind = .bareWord ∨ kind = .semicolon)
    (hchars : ∀ d ∈ c :: p.take n, d ∈ characters)
    (hfused : SemicolonsFused (c :: p) ↔ kind ≠ .semicolon ∧ SemicolonsFused (p.drop n))
    (h : Reads (cursor.behind ⟨kind, cursor.offset, String.ofList (c :: p.take n)⟩ (c :: p.take n))
      (p.drop n) after inner close next) :
    Reads cursor (c :: p) after
      (⟨kind, cursor.offset, String.ofList (c :: p.take n)⟩ :: inner) close next := by
  have hpiece : IsPiece ⟨kind, cursor.offset, String.ofList (c :: p.take n)⟩ :=
    ⟨hkind, by simp, by simpa using hchars⟩
  have htake : (p ++ ')' :: after).take n = p.take n := List.take_append_of_le_length hn
  have hdrop : (p ++ ')' :: after).drop n = p.drop n ++ ')' :: after :=
    List.drop_append_of_le_length hn
  have hne : c ≠ '=' := ne_of_mem_of_not_mem (hchars _ List.mem_cons_self) (by decide)
  refine ⟨?_, ?_, ?_, h.closes, ?_, ?_⟩
  · have hstep : Step cursor (c :: (p ++ ')' :: after)) _ _ _ :=
      .plain (not_atPod hne) hscan hpiece.isComment_eq_false
        (by rw [htake]; exact continuation?_eq_none hpiece.chars _ _ _)
    rw [htake, hdrop] at hstep
    rw [List.cons_append, lexAt_of_step hstep, h.tokens]
    rfl
  · have hspells := h.spells
    rw [Cursor.behind_offset, ← utf8ByteSize_ofList] at hspells
    have htext : c :: p ++ [')'] =
        (String.ofList (c :: p.take n)).toList ++ (p.drop n ++ [')']) := by
      rw [String.toList_ofList, List.cons_append, List.cons_append, ← List.append_assoc,
        List.take_append_drop]
    rw [htext]
    exact .token (t := ⟨kind, cursor.offset, _⟩) hpiece.nonempty
      (fun d hd => not_isBlank_of_mem (hpiece.chars d hd)) hpiece.isComment_eq_false hspells
  · exact List.forall_mem_cons.mpr ⟨hpiece, h.pieces⟩
  · rw [hfused, h.semicolons, List.forall_mem_cons]
  · have hsize : byteSize (c :: p ++ [')']) =
        byteSize (c :: p.take n) + byteSize (p.drop n ++ [')']) := by
      rw [← byteSize_append, List.cons_append, List.cons_append, ← List.append_assoc,
        List.take_append_drop]
    rw [h.offset, Cursor.behind_offset, hsize, Nat.add_assoc]

/-- The closing parenthesis, alone or with a dollar sign in front of it. -/
theorem reads_close
    (cursor : Cursor) {c : Char} {cs : List Char} {kind : Token.Kind} (hc : c ≠ '=')
    (hpiece : c :: cs = p ++ [')'])
    (hscan : Lexeme.scan c (cs ++ after) = (.token kind, cs.length))
    (hkind : kind = .punctuation ∨ kind = .variableName) (hslash : c ≠ '/')
    (hblank : (c :: cs).all (fun d => !Text.isBlank d) = true) (hsemicolon : ';' ∉ p) :
    Reads cursor p after [] ⟨kind, cursor.offset, String.ofList (p ++ [')'])⟩
      (cursor.behind ⟨kind, cursor.offset, String.ofList (p ++ [')'])⟩ (p ++ [')'])) := by
  have hcomment : kind.isComment = false := by
    rcases hkind with rfl | rfl <;> rfl
  have hquote : ∀ before previous later, Quoted.continuation? before previous
      ⟨kind, cursor.offset, String.ofList (c :: cs)⟩ later = none := by
    intro before previous later
    have htext : String.ofList (c :: cs) ≠ "/" := by
      intro heq
      have hlist := congrArg String.toList heq
      rw [String.toList_ofList] at hlist
      exact hslash (List.cons.inj hlist).1
    rcases hkind with rfl | rfl
    · simp only [Quoted.continuation?]
      rw [if_neg fun h => htext h.1]
    · rfl
  refine ⟨?_, ?_, by simp, ?_, ?_, rfl⟩
  · have hstep : Step cursor (c :: (cs ++ after)) _ _ _ :=
      .plain (not_atPod hc) hscan hcomment (by rw [List.take_left]; exact hquote _ _ _)
    rw [List.take_left, List.drop_left] at hstep
    rw [← List.singleton_append, ← List.append_assoc, ← hpiece, List.cons_append,
      lexAt_of_step hstep]
    rfl
  · have hchars : ∀ d ∈ p ++ [')'], Text.isBlank d = false := by
      intro d hd
      rw [← hpiece] at hd
      simpa using List.all_eq_true.mp hblank d hd
    have hspells := Spells.token (t := ⟨kind, cursor.offset, String.ofList (p ++ [')'])⟩)
      (by simp) (by rwa [String.toList_ofList]) hcomment .nil
    rwa [String.toList_ofList, List.append_nil] at hspells
  · rcases hkind with rfl | rfl <;> simp [Scan.closesParen]
  · simpa using semicolonsFused_of_not_mem hsemicolon

theorem exists_reads (cursor : Cursor) (hp : IsPrototype p) (after : List Char) :
    ∃ inner close next, Reads cursor p after inner close next := by
  induction hlength : p.length using Nat.strong_induction_on generalizing cursor p with
  | _ length ih =>
      cases p with
      | nil =>
          exact ⟨_, _, _, reads_close cursor (c := ')') (by decide) rfl rfl (.inl rfl) (by decide)
            (by decide) (by decide)⟩
      | cons c p =>
          obtain ⟨hc, hrest⟩ := List.forall_mem_cons.mp hp
          have hshort : ∀ n, (p.drop n).length < length := by
            intro n
            rw [← hlength, List.length_drop, List.length_cons]
            omega
          have hdrop : ∀ n, IsPrototype (p.drop n) := fun n d hd =>
            hrest d (List.mem_of_mem_drop hd)
          by_cases hgap : c ∈ gapCharacters
          · have hsingle : ∀ d ∈ [c], d ∈ gapCharacters := by
              simpa using hgap
            obtain ⟨here, hoffset, -, htokens⟩ :=
              exists_lexAt_gap cursor hsingle (p ++ ')' :: after)
            obtain ⟨inner, close, next, hreads⟩ := ih _ (hshort 0) here (hdrop 0) rfl
            exact ⟨inner, close, next, hreads.behind_blank hgap hoffset htokens⟩
          · cases head_of_mem (hc.resolve_right hgap) hrest after with
            | @piece kind n hscan hn hkind hpiece hfused =>
                obtain ⟨inner, close, next, hreads⟩ := ih _ (hshort n)
                  (cursor.behind ⟨kind, cursor.offset, String.ofList (c :: p.take n)⟩
                    (c :: p.take n)) (hdrop n) rfl
                have hplain : kind ≠ .semicolon := by
                  rcases hkind with rfl | rfl | rfl <;> simp
                exact ⟨_, close, next, hreads.behind_piece hscan hn (by tauto) hpiece
                  (hfused.trans (by simp [hplain]))⟩
            | semicolon hsemicolon hscan =>
                obtain ⟨inner, close, next, hreads⟩ := ih _ (hshort 0)
                  (cursor.behind ⟨.semicolon, cursor.offset, String.ofList (c :: p.take 0)⟩
                    (c :: p.take 0)) (hdrop 0) rfl
                refine ⟨_, close, next, hreads.behind_piece hscan (Nat.zero_le _) (by simp)
                  (by simp [hc.resolve_right hgap]) ?_⟩
                rw [hsemicolon]
                simp [not_semicolonsFused_cons]
            | close hdollar hnil hscan =>
                subst hdollar hnil
                exact ⟨_, _, _, reads_close cursor (c := '$') (by decide) rfl hscan (.inr rfl)
                  (by decide) (by decide) (by decide)⟩

end

end Prototype

end MarkerDoc
