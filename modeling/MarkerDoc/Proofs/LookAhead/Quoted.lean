import MarkerDoc.Proofs.LookAhead.Lexeme
import MarkerDoc.Proofs.Quoted

/-!
# Quote-like constructs at the end of a line

The search for the end of a quote-like construct may run through any number of lines, and through
the whole rest of the text if nothing closes it.  Seen from the end of a line it is of two kinds: it
ends before that place, with no regard to what stands behind it, or it is a search in the text
behind it alone.  In the second case a blank line in front of that text only makes it longer by one
character.
-/

namespace MarkerDoc.Quoted

/-- A measure of the head of a text, or nothing if the text has no such head. -/
abbrev Reader := List Char → Option Nat

/-- What is still read behind the end of a line: a line break is passed like any other character,
and nothing is found without a look at the first character, an escape apart. -/
structure LooksAhead (read : Reader) : Prop where
  newline : ∀ cs, read ('\n' :: cs) = (read cs).map (· + 1)
  pos : ∀ {c cs n}, c ≠ '\\' → read (c :: cs) = some n → 0 < n

/-- The two ways of reading a text whose front is `front`: within it, or on in the text behind. -/
inductive Divides (read : Reader) (front : List Char) : Prop
  | within {n : Nat} (hn : n < front.length) (h : ∀ behind, read (front ++ behind) = some n) :
      Divides read front
  | beyond {ahead : Reader} (hahead : LooksAhead ahead)
      (h : ∀ behind, read (front ++ behind) = (ahead behind).map (front.length + ·)) :
      Divides read front

theorem looksAhead_none : LooksAhead fun _ => none :=
  ⟨fun _ => rfl, fun _ h => by cases h⟩

theorem Divides.none {read : Reader} {front : List Char}
    (h : ∀ behind, read (front ++ behind) = none) : Divides read front :=
  .beyond looksAhead_none h

/-- A reader that passes some characters and then reads as another one does. -/
theorem Divides.passing
    {read read' : Reader} {front front' : List Char} {k : Nat} (h : Divides read front)
    (hlength : front'.length = k + front.length)
    (hread : ∀ behind, read' (front' ++ behind) = (read (front ++ behind)).map (k + ·)) :
    Divides read' front' := by
  cases h with
  | @within n hn h =>
      refine .within (n := k + n) (by omega) ?_
      intro behind
      rw [hread, h]
      rfl
  | beyond hahead h =>
      refine .beyond hahead ?_
      intro behind
      rw [hread, h, Option.map_map, hlength]
      congr 1
      funext n
      simp only [Function.comp_apply]
      omega

theorem Divides.cons
    {read read' : Reader} {c : Char} {front : List Char} (h : Divides read front)
    (hcons : ∀ cs, read' (c :: cs) = (read cs).map (· + 1)) : Divides read' (c :: front) := by
  apply h.passing (k := 1) (by rw [List.length_cons, Nat.add_comm])
  intro behind
  rw [List.cons_append, hcons]
  simp only [Nat.add_comm]

/-- One reader after the other. -/
def thenRead (first second : Reader) : Reader := fun cs =>
  (first cs).bind fun n => (second (cs.drop n)).map (n + ·)

theorem LooksAhead.thenRead {first : Reader} (h : LooksAhead first) (second : Reader) :
    LooksAhead (thenRead first second) := by
  constructor
  · intro cs
    unfold Quoted.thenRead
    rw [h.newline]
    cases first cs with
    | none => rfl
    | some n =>
        simp only [Option.map_some, Option.bind_some, List.drop_succ_cons, Option.map_map]
        congr 1
        funext m
        simp only [Function.comp_apply]
        omega
  · intro c cs n hc hread
    obtain ⟨m, hm, hsecond⟩ := Option.bind_eq_some_iff.mp hread
    obtain ⟨k, -, rfl⟩ := Option.map_eq_some_iff.mp hsecond
    have hpos := h.pos hc hm
    omega

theorem Divides.then
    {first second : Reader} {front : List Char} (hfront : EndsLine front)
    (hfirst : Divides first front)
    (hsecond : ∀ rest, EndsLine rest → Divides second rest) :
    Divides (thenRead first second) front := by
  cases hfirst with
  | @within n hn hfirst =>
      have hdrop : ∀ behind, (front ++ behind).drop n = front.drop n ++ behind :=
        fun behind => List.drop_append_of_le_length hn.le
      have hlength : (front.drop n).length = front.length - n := List.length_drop
      cases hsecond (front.drop n) (hfront.drop hn) with
      | @within m hm hsecond =>
          refine .within (n := n + m) (by omega) ?_
          intro behind
          rw [thenRead, hfirst, Option.bind_some, hdrop, hsecond]
          rfl
      | beyond hahead hsecond =>
          refine .beyond hahead ?_
          intro behind
          rw [thenRead, hfirst, Option.bind_some, hdrop, hsecond, Option.map_map]
          congr 1
          funext m
          simp only [Function.comp_apply]
          omega
  | @beyond ahead hahead hfirst =>
      refine .beyond (hahead.thenRead second) ?_
      intro behind
      unfold thenRead
      rw [hfirst]
      cases ahead behind with
      | none => rfl
      | some m =>
          have hdrop : (front ++ behind).drop (front.length + m) = behind.drop m := by
            rw [List.drop_append, List.drop_eq_nil_iff.mpr (by omega)]
            simp
          simp only [Option.map_some, Option.bind_some, hdrop, Option.map_map]
          congr 1
          funext k
          simp only [Function.comp_apply]
          omega

/-! ## Bodies -/

theorem delimitedFrom_pos
    {opener closer : Char} {depth : Nat} {c : Char} {cs : List Char} {n : Nat} (hc : c ≠ '\\')
    (h : delimitedFrom opener closer depth (c :: cs) = some n) : 0 < n := by
  rw [delimitedFrom_cons hc] at h
  have hsucc : ∀ {length : Option Nat}, length.map (· + 1) = some n → 0 < n := by
    intro length hlength
    obtain ⟨m, -, rfl⟩ := Option.map_eq_some_iff.mp hlength
    exact Nat.succ_pos m
  split_ifs at h
  · cases depth with
    | zero =>
        obtain rfl := Option.some.inj h
        exact Nat.one_pos
    | succ depth => exact hsucc h
  · exact hsucc h
  · exact hsucc h

section

variable {opener closer : Char}

theorem looksAhead_delimitedFrom
    (hopener : opener ≠ '\n') (hcloser : closer ≠ '\n') (depth : Nat) :
    LooksAhead (delimitedFrom opener closer depth) :=
  ⟨delimitedFrom_plain (by decide) hcloser.symm hopener.symm, delimitedFrom_pos⟩

theorem divides_delimitedFrom
    (hopener : opener ≠ '\n') (hcloser : closer ≠ '\n') (depth : Nat) {front : List Char}
    (h : AtLineStart front) : Divides (delimitedFrom opener closer depth) front := by
  induction hlength : front.length using Nat.strong_induction_on generalizing front depth with
  | _ length ih =>
      subst hlength
      rcases atLineStart_iff.mp h with rfl | h
      · refine .beyond (looksAhead_delimitedFrom hopener hcloser depth) ?_
        intro behind
        simp
      obtain ⟨c, front, rfl⟩ := List.exists_cons_of_ne_nil h.ne_nil
      have hrest : ∀ depth, Divides (delimitedFrom opener closer depth) front :=
        fun depth => ih front.length (by simp) depth h.tail rfl
      by_cases hescape : c = '\\'
      · subst hescape
        have hfront : EndsLine front := h.tail_of_ne (by decide)
        obtain ⟨d, front, rfl⟩ := List.exists_cons_of_ne_nil hfront.ne_nil
        have hbody := ih front.length (by simp) depth hfront.tail rfl
        apply hbody.passing (k := 2) (by simp only [List.length_cons]; omega)
        intro behind
        rw [List.cons_append, List.cons_append, delimitedFrom_escape]
        simp only [Nat.add_comm]
      · by_cases hclose : c = closer
        · subst hclose
          cases depth with
          | zero =>
              have hpos := List.length_pos_iff.mpr (h.tail_of_ne hcloser).ne_nil
              refine .within (n := 1) (by simpa using hpos) ?_
              intro behind
              rw [List.cons_append, delimitedFrom_cons hescape, if_pos rfl]
          | succ depth =>
              refine (hrest depth).cons ?_
              intro cs
              rw [delimitedFrom_cons hescape, if_pos rfl]
        · by_cases hopen : c = opener
          · refine (hrest (depth + 1)).cons ?_
            intro cs
            rw [delimitedFrom_cons hescape, if_neg hclose, if_pos hopen]
          · refine (hrest depth).cons ?_
            intro cs
            exact delimitedFrom_plain hescape hclose hopen cs

theorem looksAhead_delimited (h : IsInline opener) : LooksAhead (delimited opener) :=
  looksAhead_delimitedFrom h.2 (isInline_closing h).2 0

theorem divides_delimited (h : IsInline opener) {front : List Char} (hfront : AtLineStart front) :
    Divides (delimited opener) front :=
  divides_delimitedFrom h.2 (isInline_closing h).2 0 hfront

/-! ## Two parts and modifiers -/

theorem secondPart_unbracketed (hbracket : (closingBracket? opener).isSome = false) :
    secondPart opener = delimited opener := by
  have hnone : closingBracket? opener = none := by simpa using hbracket
  funext cs
  rw [secondPart, hnone]

theorem secondPart_blank
    (hbracket : (closingBracket? opener).isSome = true) {c : Char} (hc : Text.isBlank c = true)
    (cs : List Char) : secondPart opener (c :: cs) = (secondPart opener cs).map (· + 1) := by
  obtain ⟨closer, hcloser⟩ := Option.isSome_iff_exists.mp hbracket
  unfold secondPart
  simp only [hcloser, List.takeWhile_cons, hc, if_true, List.length_cons, List.drop_succ_cons]
  cases cs.drop (cs.takeWhile Text.isBlank).length with
  | nil => rfl
  | cons second body =>
      simp only [Option.map_map]
      congr 1
      funext n
      simp only [Function.comp_apply]
      omega

theorem secondPart_open
    (hbracket : (closingBracket? opener).isSome = true) {c : Char} (hc : Text.isBlank c = false)
    (cs : List Char) : secondPart opener (c :: cs) = (delimited c cs).map (· + 1) := by
  obtain ⟨closer, hcloser⟩ := Option.isSome_iff_exists.mp hbracket
  unfold secondPart
  simp [hcloser, hc, Nat.add_comm]

theorem looksAhead_secondPart (h : IsInline opener) : LooksAhead (secondPart opener) := by
  cases hbracket : (closingBracket? opener).isSome with
  | false =>
      rw [secondPart_unbracketed hbracket]
      exact looksAhead_delimited h
  | true =>
      constructor
      · exact secondPart_blank hbracket (by decide)
      · intro c cs n _ hread
        have hsucc : ∃ length : Option Nat, secondPart opener (c :: cs) = length.map (· + 1) := by
          cases hc : Text.isBlank c with
          | true => exact ⟨_, secondPart_blank hbracket hc cs⟩
          | false => exact ⟨_, secondPart_open hbracket hc cs⟩
        obtain ⟨length, hlength⟩ := hsucc
        obtain ⟨m, -, rfl⟩ := Option.map_eq_some_iff.mp (hlength.symm.trans hread)
        exact Nat.succ_pos m

theorem divides_secondPart (h : IsInline opener) {front : List Char} (hfront : AtLineStart front) :
    Divides (secondPart opener) front := by
  cases hbracket : (closingBracket? opener).isSome with
  | false =>
      rw [secondPart_unbracketed hbracket]
      exact divides_delimited h hfront
  | true =>
      induction front with
      | nil =>
          refine .beyond (looksAhead_secondPart h) ?_
          intro behind
          simp
      | cons c front ih =>
          have hends : EndsLine (c :: front) := hfront.resolve_left (List.cons_ne_nil c front)
          cases hc : Text.isBlank c with
          | true => exact (ih hends.tail).cons (secondPart_blank hbracket hc)
          | false =>
              have hbody := divides_delimited (isInline_of_isBlank hc) hends.tail
              exact hbody.cons (secondPart_open hbracket hc)

theorem divides_takeWhile
    {p : Char → Bool} (hp : p '\n' = false) {front : List Char} (h : EndsLine front) :
    Divides (fun cs => some (cs.takeWhile p).length) front := by
  obtain ⟨n, hn, hlength⟩ := (Lexeme.staysInLine_takeWhile hp).of_endsLine h
  refine .within hn ?_
  intro behind
  rw [hlength]

theorem partsLength_eq_thenRead (twoParts : Bool) (opener : Char) :
    partsLength twoParts opener =
      thenRead
        (thenRead (delimited opener) fun cs => if twoParts then secondPart opener cs else some 0)
        fun cs => some (cs.takeWhile Char.isLower).length := by
  funext body
  unfold partsLength thenRead
  cases delimited opener body with
  | none => rfl
  | some first =>
      simp only [Option.bind_some]
      cases (if twoParts = true then secondPart opener (body.drop first) else some 0) with
      | none => rfl
      | some second => rfl

theorem divides_partsLength
    (twoParts : Bool) (h : IsInline opener) {front : List Char} (hfront : EndsLine front) :
    Divides (partsLength twoParts opener) front := by
  have hsecond : ∀ rest, EndsLine rest →
      Divides (fun cs => if twoParts then secondPart opener cs else some 0) rest := by
    intro rest hrest
    cases twoParts with
    | true => exact divides_secondPart h (.inr hrest)
    | false => exact .within (List.length_pos_iff.mpr hrest.ne_nil) fun _ => rfl
  have hparts := (divides_delimited h (.inr hfront)).then hfront hsecond
  rw [partsLength_eq_thenRead]
  exact hparts.then hfront fun rest hrest => divides_takeWhile (by decide) hrest

end

/-! ## Whole constructs -/

theorem divides_extent (twoParts : Bool) {front : List Char} (h : EndsLine front) :
    Divides (extent twoParts) front := by
  obtain ⟨gap, hgap, hlength⟩ :=
    (Lexeme.staysInLine_takeWhile (p := fun c => c == ' ' || c == '\t') (by decide)).of_endsLine h
  have hsame : ∀ behind, operatorGap (front ++ behind) = gap := hlength
  have hdrop : ∀ behind, (front ++ behind).drop gap = front.drop gap ++ behind :=
    fun behind => List.drop_append_of_le_length hgap.le
  obtain ⟨opener, body, hbody⟩ := List.exists_cons_of_ne_nil (h.drop hgap).ne_nil
  have hextent : ∀ behind, extent twoParts (front ++ behind) =
      if opensBody gap opener then (partsLength twoParts opener (body ++ behind)).map (gap + 1 + ·)
      else none := by
    intro behind
    rw [extent_eq, hsame, hdrop, hbody]
    rfl
  by_cases hopens : opensBody gap opener = true
  · have hopener := isInline_of_isBlank (isBlank_of_opensBody hopens)
    have hends : EndsLine (opener :: body) := hbody ▸ h.drop hgap
    have hparts := divides_partsLength twoParts hopener (hends.tail_of_ne hopener.2)
    have hfront := congrArg List.length hbody
    rw [List.length_drop, List.length_cons] at hfront
    apply hparts.passing (k := gap + 1) (by omega)
    intro behind
    rw [hextent, if_pos hopens]
  · apply Divides.none
    intro behind
    rw [hextent, if_neg hopens]

/-- The length of a match behind the slash that opens it, if it ends on its line. -/
def matchLength : Reader := fun after =>
  (extent false ('/' :: after)).bind fun n =>
    if '\n' ∈ after.take (n - 1) then none else some (n - 1)

theorem divides_matchLength {front : List Char} (h : EndsLine front) :
    Divides matchLength front := by
  have hpos := List.length_pos_iff.mpr h.ne_nil
  have hslash : EndsLine ('/' :: front) := by
    obtain ⟨c, front, rfl⟩ := List.exists_cons_of_ne_nil h.ne_nil
    unfold EndsLine at h ⊢
    rwa [List.getLast?_cons_cons]
  cases divides_extent false hslash with
  | @within n hn hextent =>
      rw [List.length_cons] at hn
      have hmatch : ∀ behind, matchLength (front ++ behind) =
          if '\n' ∈ front.take (n - 1) then none else some (n - 1) := by
        intro behind
        have hread : extent false ('/' :: (front ++ behind)) = some n := hextent behind
        rw [matchLength, hread, Option.bind_some, List.take_append_of_le_length (by omega)]
      by_cases hbreak : '\n' ∈ front.take (n - 1)
      · apply Divides.none
        intro behind
        rw [hmatch, if_pos hbreak]
      · refine .within (n := n - 1) (by omega) ?_
        intro behind
        rw [hmatch, if_neg hbreak]
  | @beyond ahead hahead hextent =>
      -- What ends behind the line has the line break in it.
      apply Divides.none
      intro behind
      have hread : extent false ('/' :: (front ++ behind)) = _ := hextent behind
      rw [matchLength, hread]
      cases ahead behind with
      | none => rfl
      | some m =>
          have hlength : ('/' :: front).length + m - 1 = front.length + m := by
            rw [List.length_cons]
            omega
          have hbreak : '\n' ∈ (front ++ behind).take (front.length + m) := by
            rw [List.take_length_add_append]
            exact List.mem_append_left _ h.newline_mem
          rw [Option.map_some, Option.bind_some, hlength, if_pos hbreak]

/-- The look behind a token for the construct that it may open. -/
theorem divides_continuation?
    (before : Option Char) (previous : Option Token) (t : Token) {front : List Char}
    (h : EndsLine front) : Divides (continuation? before previous t) front := by
  unfold continuation?
  split
  · split_ifs
    · exact Divides.none fun _ => rfl
    · exact divides_extent _ h
    · exact Divides.none fun _ => rfl
  · split_ifs
    · exact divides_matchLength h
    · exact Divides.none fun _ => rfl
  · exact Divides.none fun _ => rfl

end MarkerDoc.Quoted
