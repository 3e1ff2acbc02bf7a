import MarkerDoc.Proofs.Lexeme
import MarkerDoc.Token.Lexer

/-!
# The lexer one step at a time

The lexer is a loop over the text.  This module says once what a single round of that loop can do:
it passes an embedded documentation block or a blank without a token, takes an end marker that does
not count as an ordinary word, or takes a token, with or without the quoted construct behind it.
What is said about tokens elsewhere is read off a step and carried through a whole run by
`lexAt_induction`; the recursion itself is opened only here.
-/

namespace MarkerDoc.Token

/-- Where the lexer stands: the byte offset, the character just passed and the last token that is
not a comment. -/
structure Cursor where
  offset : Nat
  before : Option Char
  previous : Option Token

def Cursor.start : Cursor :=
  ⟨0, none, none⟩

def Cursor.past (cursor : Cursor) (run : List Char) : Cursor :=
  { cursor with
    offset := cursor.offset + byteSize run
    before := lastOr cursor.before run }

/-- The position after a token that later tokens are judged by. -/
def Cursor.behind (cursor : Cursor) (token : Token) (run : List Char) : Cursor :=
  { cursor.past run with previous := some token }

def lexAt (cursor : Cursor) (cs : List Char) : List Token :=
  lexFrom cursor.offset cursor.before cursor.previous cs

theorem lex_eq_lexAt (source : String) : lex source = lexAt .start source.toList :=
  rfl

/-- An embedded documentation block begins here. -/
def Cursor.AtPod (cursor : Cursor) (cs : List Char) : Prop :=
  (atLineStart cursor.before && Pod.opens cs) = true

/-- One round of the lexer: the text before it, the token it gives if any, and the position and
text it leaves. -/
inductive Step (cursor : Cursor) : List Char → Option Token → Cursor → List Char → Prop
  | pod {c : Char} {cs : List Char} (hpod : cursor.AtPod (c :: cs)) :
      Step cursor (c :: cs) none (cursor.past ((c :: cs).take (Pod.length (c :: cs))))
        (cs.drop (Pod.length (c :: cs) - 1))
  | gap {c : Char} {cs : List Char} {n : Nat} (hpod : ¬ cursor.AtPod (c :: cs))
      (hscan : Lexeme.scan c cs = (.blank, n) ∨ Lexeme.scan c cs = (.newline, n)) :
      Step cursor (c :: cs) none (cursor.past [c]) cs
  | strayEnd {c : Char} {cs : List Char} {n : Nat} (hpod : ¬ cursor.AtPod (c :: cs))
      (hscan : Lexeme.scan c cs = (.endMarker, n)) (hstart : atLineStart cursor.before = false) :
      Step cursor (c :: cs) (some ⟨.bareWord, cursor.offset, String.ofList (c :: cs.take n)⟩)
        (cursor.past (c :: cs.take n)) (cs.drop n)
  | quoted {c : Char} {cs : List Char} {kind : Kind} {n m : Nat}
      (hpod : ¬ cursor.AtPod (c :: cs)) (hscan : Lexeme.scan c cs = (.token kind, n))
      (hquote : Quoted.continuation? cursor.before cursor.previous
        ⟨kind, cursor.offset, String.ofList (c :: cs.take n)⟩ (cs.drop n) = some m) :
      Step cursor (c :: cs) (some ⟨.string, cursor.offset, String.ofList (c :: cs.take (n + m))⟩)
        (cursor.behind ⟨.string, cursor.offset, String.ofList (c :: cs.take (n + m))⟩
          (c :: cs.take (n + m)))
        (cs.drop (n + m))
  | comment {c : Char} {cs : List Char} {kind : Kind} {n : Nat}
      (hpod : ¬ cursor.AtPod (c :: cs)) (hscan : Lexeme.scan c cs = (.token kind, n))
      (hkind : kind.isComment = true) :
      Step cursor (c :: cs) (some ⟨kind, cursor.offset, String.ofList (c :: cs.take n)⟩)
        (cursor.past (c :: cs.take n)) (cs.drop n)
  | plain {c : Char} {cs : List Char} {kind : Kind} {n : Nat}
      (hpod : ¬ cursor.AtPod (c :: cs)) (hscan : Lexeme.scan c cs = (.token kind, n))
      (hkind : kind.isComment = false)
      (hquote : Quoted.continuation? cursor.before cursor.previous
        ⟨kind, cursor.offset, String.ofList (c :: cs.take n)⟩ (cs.drop n) = none) :
      Step cursor (c :: cs) (some ⟨kind, cursor.offset, String.ofList (c :: cs.take n)⟩)
        (cursor.behind ⟨kind, cursor.offset, String.ofList (c :: cs.take n)⟩ (c :: cs.take n))
        (cs.drop n)

/-- An end marker at the start of a line, which ends the tokens. -/
def Halts (cursor : Cursor) (cs : List Char) : Prop :=
  ∃ c rest n, cs = c :: rest ∧ ¬ cursor.AtPod cs ∧
    Lexeme.scan c rest = (.endMarker, n) ∧ atLineStart cursor.before = true

theorem lexAt_nil (cursor : Cursor) : lexAt cursor [] = [] := by
  simp [lexAt, lexFrom]

/-- The tokens where no documentation block begins are decided by the lexeme. -/
theorem lexAt_cons_of_not_pod
    {cursor : Cursor} {c : Char} {cs : List Char} (hpod : ¬ cursor.AtPod (c :: cs)) :
    lexAt cursor (c :: cs) =
      match Lexeme.scan c cs with
      | (.blank, _) => lexAt (cursor.past [c]) cs
      | (.newline, _) => lexAt (cursor.past [c]) cs
      | (.endMarker, n) =>
        if atLineStart cursor.before then []
        else
          ⟨.bareWord, cursor.offset, String.ofList (c :: cs.take n)⟩ ::
            lexAt (cursor.past (c :: cs.take n)) (cs.drop n)
      | (.token kind, n) =>
        let base : Token := ⟨kind, cursor.offset, String.ofList (c :: cs.take n)⟩
        match Quoted.continuation? cursor.before cursor.previous base (cs.drop n) with
        | some m =>
          let quoted : Token := ⟨.string, cursor.offset, String.ofList (c :: cs.take (n + m))⟩
          quoted :: lexAt (cursor.behind quoted (c :: cs.take (n + m))) (cs.drop (n + m))
        | none =>
          base :: lexAt
            (if kind.isComment then cursor.past (c :: cs.take n)
             else cursor.behind base (c :: cs.take n)) (cs.drop n) := by
  unfold Cursor.AtPod at hpod
  conv_lhs => rw [lexAt, lexFrom, if_neg hpod]
  rcases hscan : Lexeme.scan c cs with ⟨lexeme, n⟩
  cases lexeme with
  | blank => simp [lexAt, Cursor.past, byteSize, lastOr]
  | newline => simp [lexAt, Cursor.past, byteSize, lastOr]
  | endMarker => rfl
  | token kind =>
      simp only
      cases Quoted.continuation? cursor.before cursor.previous
          ⟨kind, cursor.offset, String.ofList (c :: cs.take n)⟩ (cs.drop n) with
      | some m => rfl
      | none => cases kind.isComment <;> rfl

theorem lexAt_of_halts
    {cursor : Cursor} {cs : List Char} (h : Halts cursor cs) :
    lexAt cursor cs = [] := by
  obtain ⟨c, rest, n, rfl, hpod, hscan, hstart⟩ := h
  rw [lexAt_cons_of_not_pod hpod, hscan]
  simp [hstart]

theorem continuation?_of_isComment
    {before : Option Char} {previous : Option Token} {token : Token} {after : List Char}
    (h : token.kind.isComment = true) :
    Quoted.continuation? before previous token after = none := by
  unfold Quoted.continuation?
  split
  · next hkind => simp [hkind, Kind.isComment] at h
  · next hkind => simp [hkind, Kind.isComment] at h
  · rfl

/-- What a step gives is what the lexer gives first. -/
theorem lexAt_of_step
    {cursor next : Cursor} {cs rest : List Char} {found : Option Token}
    (h : Step cursor cs found next rest) :
    lexAt cursor cs = found.toList ++ lexAt next rest := by
  cases h with
  | pod hpod =>
      unfold Cursor.AtPod at hpod
      unfold lexAt
      rw [lexFrom, if_pos hpod]
      rfl
  | gap hpod hscan =>
      rw [lexAt_cons_of_not_pod hpod]
      rcases hscan with hscan | hscan <;> simp [hscan]
  | strayEnd hpod hscan hstart =>
      rw [lexAt_cons_of_not_pod hpod, hscan]
      simp [hstart]
  | quoted hpod hscan hquote =>
      rw [lexAt_cons_of_not_pod hpod, hscan]
      simp only [hquote]
      rfl
  | comment hpod hscan hkind =>
      rw [lexAt_cons_of_not_pod hpod, hscan]
      simp only
      rw [continuation?_of_isComment hkind, if_pos hkind]
      rfl
  | plain hpod hscan hkind hquote =>
      rw [lexAt_cons_of_not_pod hpod, hscan]
      simp only [hquote, hkind]
      rfl

/-- A text is used up, or the lexer halts, or it takes a step. -/
theorem step_or_halts (cursor : Cursor) (c : Char) (cs : List Char) :
    Halts cursor (c :: cs) ∨ ∃ found next rest, Step cursor (c :: cs) found next rest := by
  by_cases hpod : cursor.AtPod (c :: cs)
  · exact .inr ⟨_, _, _, .pod hpod⟩
  · rcases hscan : Lexeme.scan c cs with ⟨lexeme, n⟩
    cases lexeme with
    | blank =>
        exact .inr ⟨_, _, _, .gap hpod (.inl hscan)⟩
    | newline =>
        exact .inr ⟨_, _, _, .gap hpod (.inr hscan)⟩
    | endMarker =>
        cases hstart : atLineStart cursor.before with
        | true =>
            exact .inl ⟨c, cs, n, rfl, hpod, hscan, hstart⟩
        | false =>
            exact .inr ⟨_, _, _, .strayEnd hpod hscan hstart⟩
    | token kind =>
        cases hkind : kind.isComment with
        | true =>
            exact .inr ⟨_, _, _, .comment hpod hscan hkind⟩
        | false =>
            cases hquote : Quoted.continuation? cursor.before cursor.previous
                ⟨kind, cursor.offset, String.ofList (c :: cs.take n)⟩ (cs.drop n) with
            | none =>
                exact .inr ⟨_, _, _, .plain hpod hscan hkind hquote⟩
            | some m =>
                exact .inr ⟨_, _, _, .quoted hpod hscan hquote⟩

/-! ## What a step passes -/

theorem byteSize_cons (c : Char) (cs : List Char) :
    byteSize (c :: cs) = c.utf8Size + byteSize cs :=
  rfl

theorem byteSize_append (cs ds : List Char) : byteSize (cs ++ ds) = byteSize cs + byteSize ds := by
  induction cs with
  | nil => simp [byteSize]
  | cons c cs ih => rw [List.cons_append, byteSize_cons, byteSize_cons, ih, Nat.add_assoc]

theorem byteSize_pos {cs : List Char} (h : cs ≠ []) : 0 < byteSize cs := by
  obtain ⟨c, rest, rfl⟩ := List.exists_cons_of_ne_nil h
  have hpos := c.utf8Size_pos
  rw [byteSize_cons]
  omega

theorem utf8ByteSize_ofList (cs : List Char) :
    (String.ofList cs).utf8ByteSize = byteSize cs := by
  induction cs with
  | nil => rfl
  | cons c cs ih => simp [byteSize_cons, ih]

theorem byteSize_toList (s : String) : byteSize s.toList = s.utf8ByteSize := by
  rw [← utf8ByteSize_ofList, String.ofList_toList]

theorem length_flatMap_utf8EncodeChar (cs : List Char) :
    (cs.flatMap String.utf8EncodeChar).length = byteSize cs := by
  induction cs with
  | nil => rfl
  | cons c cs ih =>
      rw [List.flatMap_cons, List.length_append, ih, byteSize_cons, String.length_utf8EncodeChar]

@[simp] theorem Cursor.behind_offset (cursor : Cursor) (token : Token) (run : List Char) :
    (cursor.behind token run).offset = cursor.offset + byteSize run :=
  rfl

theorem podLength_pos (c : Char) (cs : List Char) : 0 < Pod.length (c :: cs) := by
  simp only [Pod.length, Pod.lengthFrom]
  split <;> [split; skip] <;> omega

theorem drop_podLength (c : Char) (cs : List Char) :
    cs.drop (Pod.length (c :: cs) - 1) = (c :: cs).drop (Pod.length (c :: cs)) := by
  rw [← List.drop_succ_cons, Nat.sub_add_cancel (podLength_pos c cs)]

theorem lexAt_pod {cursor : Cursor} {cs : List Char} (h : cursor.AtPod cs) :
    lexAt cursor cs = lexAt (cursor.past (cs.take (Pod.length cs))) (cs.drop (Pod.length cs)) := by
  cases cs with
  | nil => simp [Cursor.AtPod, Pod.opens] at h
  | cons c cs =>
      rw [lexAt_of_step (.pod h), drop_podLength]
      rfl

/-- The characters that a step passes: the front of its text, and the text of its token. -/
structure Step.Passes (cursor : Cursor) (cs : List Char) (found : Option Token)
    (next : Cursor) (rest run : List Char) : Prop where
  nonempty : run ≠ []
  text : cs = run ++ rest
  offset : next.offset = cursor.offset + byteSize run
  before : next.before = (cursor.past run).before
  token : ∀ t ∈ found, t.start = cursor.offset ∧ t.text = String.ofList run

theorem Step.exists_passes
    {cursor next : Cursor} {cs rest : List Char} {found : Option Token}
    (h : Step cursor cs found next rest) :
    ∃ run, Step.Passes cursor cs found next rest run := by
  cases h with
  | @pod c cs hpod =>
      refine ⟨(c :: cs).take (Pod.length (c :: cs)), ?_, ?_, rfl, rfl, by simp⟩
      · simpa using (podLength_pos c cs).ne'
      · rw [drop_podLength, List.take_append_drop]
  | @gap c cs n hpod hscan =>
      exact ⟨[c], by simp, rfl, rfl, rfl, by simp⟩
  | @strayEnd c cs n hpod hscan hstart =>
      exact ⟨c :: cs.take n, by simp, by simp, rfl, rfl, by simp⟩
  | @quoted c cs kind n m hpod hscan hquote =>
      exact ⟨c :: cs.take (n + m), by simp, by simp, rfl, rfl, by simp⟩
  | @comment c cs kind n hpod hscan hkind =>
      exact ⟨c :: cs.take n, by simp, by simp, rfl, rfl, by simp⟩
  | @plain c cs kind n hpod hscan hkind hquote =>
      exact ⟨c :: cs.take n, by simp, by simp, rfl, rfl, by simp⟩

theorem Step.length_lt
    {cursor next : Cursor} {cs rest : List Char} {found : Option Token}
    (h : Step cursor cs found next rest) : rest.length < cs.length := by
  obtain ⟨run, hrun⟩ := h.exists_passes
  have hpos := List.length_pos_iff.mpr hrun.nonempty
  rw [hrun.text, List.length_append]
  omega

/-- What holds at the end of a text, where the lexer halts, and before a step whenever it holds
after it, holds of every run of the lexer. -/
theorem lexAt_induction
    {P : Cursor → List Char → List Token → Prop}
    (nil : ∀ cursor, P cursor [] [])
    (halt : ∀ cursor cs, Halts cursor cs → P cursor cs [])
    (step : ∀ cursor cs found next rest, Step cursor cs found next rest →
      P next rest (lexAt next rest) → P cursor cs (found.toList ++ lexAt next rest))
    (cursor : Cursor) (cs : List Char) : P cursor cs (lexAt cursor cs) := by
  induction hlength : cs.length using Nat.strong_induction_on generalizing cursor cs with
  | _ length ih =>
      cases cs with
      | nil =>
          rw [lexAt_nil]
          exact nil cursor
      | cons c cs =>
          rcases step_or_halts cursor c cs with hhalt | ⟨found, next, rest, hstep⟩
          · rw [lexAt_of_halts hhalt]
            exact halt cursor _ hhalt
          · rw [lexAt_of_step hstep]
            have hlt := hstep.length_lt
            exact step _ _ _ _ _ hstep (ih _ (hlength ▸ hlt) next rest rfl)

/-- Every token is given by a step at its own place, and the tokens after it are those of the text
behind it. -/
theorem exists_step_of_lexAt
    {cursor : Cursor} {cs : List Char} {front ts : List Token} {t : Token}
    (h : lexAt cursor cs = front ++ t :: ts) :
    ∃ passed here next rest, Step here (t.text.toList ++ rest) (some t) next rest ∧
      cs = passed ++ (t.text.toList ++ rest) ∧ t.start = cursor.offset + byteSize passed ∧
      next.offset = t.stop ∧ lexAt next rest = ts := by
  refine lexAt_induction
    (P := fun cursor cs tokens => ∀ front t ts, tokens = front ++ t :: ts →
      ∃ passed here next rest, Step here (t.text.toList ++ rest) (some t) next rest ∧
        cs = passed ++ (t.text.toList ++ rest) ∧ t.start = cursor.offset + byteSize passed ∧
        next.offset = t.stop ∧ lexAt next rest = ts)
    ?_ ?_ ?_ cursor cs front t ts h
  · intro cursor front t ts hempty
    simp at hempty
  · intro cursor cs _ front t ts hempty
    simp at hempty
  · intro cursor cs found next rest hstep ih front t ts hsplit
    obtain ⟨run, hrun⟩ := hstep.exists_passes
    -- A token behind this step is found in what the step leaves.
    have hbehind : ∀ front, lexAt next rest = front ++ t :: ts →
        ∃ passed here next rest, Step here (t.text.toList ++ rest) (some t) next rest ∧
          cs = passed ++ (t.text.toList ++ rest) ∧ t.start = cursor.offset + byteSize passed ∧
          next.offset = t.stop ∧ lexAt next rest = ts := by
      intro front hfront
      obtain ⟨passed, here, last, after, hhere, htext, hstart, hstop⟩ := ih front t ts hfront
      refine ⟨run ++ passed, here, last, after, hhere, ?_, ?_, hstop⟩
      · rw [hrun.text, htext, List.append_assoc]
      · rw [hstart, hrun.offset, byteSize_append, Nat.add_assoc]
    cases found with
    | none =>
        exact hbehind front hsplit
    | some u =>
        cases front with
        | cons v front =>
            exact hbehind front (List.cons.inj hsplit).2
        | nil =>
            obtain ⟨rfl, rfl⟩ := List.cons.inj hsplit
            obtain ⟨hstart, htext⟩ := hrun.token u rfl
            have hlist : u.text.toList = run := by
              rw [htext, String.toList_ofList]
            refine ⟨[], cursor, next, rest, ?_, ?_, hstart, ?_, rfl⟩
            · rw [hlist, ← hrun.text]
              exact hstep
            · rw [hlist, hrun.text, List.nil_append]
            · rw [hrun.offset, stop, hstart, htext, utf8ByteSize_ofList]

/-- What the text of a word token looks like. -/
structure IsWordText (t : Token) : Prop where
  head : ∃ c tail, t.text.toList = c :: tail ∧ Lexeme.isWordStart c = true
  chars : ∀ d ∈ t.text.toList, Lexeme.isWordChar d = true ∨ d = ':'
  sub : t.kind = .sub → t.text = "sub"

theorem Step.isWordText
    {cursor next : Cursor} {cs rest : List Char} {t : Token}
    (h : Step cursor cs (some t) next rest) (hword : t.kind.isWord = true) : IsWordText t := by
  have htext : ∀ (kind : Kind) (c : Char) (cs : List Char), Lexeme.isWordStart c = true →
      (kind = .sub → String.ofList (c :: cs.take (Lexeme.bareWordTail cs)) = "sub") →
      IsWordText ⟨kind, cursor.offset, String.ofList (c :: cs.take (Lexeme.bareWordTail cs))⟩ := by
    intro kind c cs hc hsub
    refine ⟨⟨c, _, String.toList_ofList, hc⟩, ?_, hsub⟩
    rw [String.toList_ofList]
    exact List.forall_mem_cons.mpr ⟨.inl (Lexeme.isWordChar_of_isWordStart hc),
      (Lexeme.bareWordTail_spec cs).1⟩
  cases h with
  | @strayEnd c cs n hpod hscan hstart =>
      have hc : Lexeme.isWordStart c = true := by
        rw [← Lexeme.isWord_scan c cs, hscan]
        rfl
      rw [Lexeme.scan_of_isWordStart hc] at hscan
      obtain ⟨-, rfl⟩ := Prod.mk.inj hscan
      exact htext _ c cs hc (by simp)
  | quoted =>
      simp [Kind.isWord] at hword
  | @comment c cs kind n hpod hscan hkind =>
      rw [Kind.isComment_of_isWord hword] at hkind
      cases hkind
  | @plain c cs kind n hpod hscan hkind hquote =>
      have hc : Lexeme.isWordStart c = true := by
        rw [← Lexeme.isWord_scan c cs, hscan]
        exact hword
      rw [Lexeme.scan_of_isWordStart hc] at hscan
      obtain ⟨hkind, rfl⟩ := Prod.mk.inj hscan
      refine htext _ c cs hc ?_
      rintro rfl
      exact Lexeme.ofWord_eq_sub hkind

theorem isWordText_of_mem_lex
    {source : String} {t : Token} (h : t ∈ lex source) (hword : t.kind.isWord = true) :
    IsWordText t := by
  obtain ⟨front, ts, hsplit⟩ := List.append_of_mem h
  rw [lex_eq_lexAt] at hsplit
  obtain ⟨_, _, _, _, hstep, -⟩ := exists_step_of_lexAt hsplit
  exact hstep.isWordText hword

theorem IsWordText.text_ne_empty {t : Token} (h : IsWordText t) : t.text ≠ "" := by
  obtain ⟨c, tail, htext, -⟩ := h.head
  intro hempty
  simp [hempty] at htext

theorem IsWordText.isBlank_eq_false
    {t : Token} (h : IsWordText t) {d : Char} (hd : d ∈ t.text.toList) :
    Text.isBlank d = false := by
  rcases h.chars d hd with hchar | rfl
  · exact Lexeme.isBlank_of_isWordChar hchar
  · decide

/-- Tokens are not empty and lie ahead. -/
theorem start_lt_stop_of_mem_lexAt
    {cursor : Cursor} {cs : List Char} {t : Token} (ht : t ∈ lexAt cursor cs) :
    cursor.offset ≤ t.start ∧ t.start < t.stop := by
  refine lexAt_induction
    (P := fun cursor _ ts => ∀ t ∈ ts, cursor.offset ≤ t.start ∧ t.start < t.stop)
    ?_ ?_ ?_ cursor cs t ht
  · intro cursor t ht
    cases ht
  · intro cursor cs _ t ht
    cases ht
  · intro cursor cs found next rest hstep ih t ht
    obtain ⟨run, hrun⟩ := hstep.exists_passes
    rcases List.mem_append.mp ht with hfound | hrest
    · obtain ⟨hstart, htext⟩ := hrun.token t (Option.mem_toList.mp hfound)
      have hpos := byteSize_pos hrun.nonempty
      rw [stop, htext, utf8ByteSize_ofList]
      omega
    · have hoffset := hrun.offset
      have hbounds := ih t hrest
      omega

/-! ## Reading written text

The tokens of a text whose head is known, for the characters and words that sources are laid out
with. -/

theorem not_atPod {cursor : Cursor} {c : Char} {cs : List Char} (h : c ≠ '=') :
    ¬ cursor.AtPod (c :: cs) := by
  have hopens : Pod.opens (c :: cs) = false := by
    unfold Pod.opens
    split <;> simp_all
  simp [Cursor.AtPod, hopens]

theorem lexAt_space (cursor : Cursor) (cs : List Char) :
    lexAt cursor (' ' :: cs) = lexAt ⟨cursor.offset + 1, some ' ', cursor.previous⟩ cs :=
  lexAt_of_step (.gap (not_atPod (by decide)) (.inl rfl))

theorem lexAt_newline (cursor : Cursor) (cs : List Char) :
    lexAt cursor ('\n' :: cs) = lexAt ⟨cursor.offset + 1, some '\n', cursor.previous⟩ cs :=
  lexAt_of_step (.gap (not_atPod (by decide)) (.inr rfl))

theorem lexAt_mark
    (cursor : Cursor) {c : Char} {cs : List Char} {kind : Kind}
    (hc : c ≠ '=') (hscan : Lexeme.scan c cs = (.token kind, 0))
    (hkind : kind = .semicolon ∨ kind = .leftBrace ∨ kind = .rightBrace) :
    lexAt cursor (c :: cs) =
      ⟨kind, cursor.offset, String.singleton c⟩ ::
        lexAt ⟨cursor.offset + c.utf8Size, some c,
          some ⟨kind, cursor.offset, String.singleton c⟩⟩ cs := by
  have hstep : Step cursor (c :: cs) _ _ _ :=
    .plain (not_atPod hc) hscan (by rcases hkind with rfl | rfl | rfl <;> rfl)
      (by rcases hkind with rfl | rfl | rfl <;> rfl)
  simpa [Cursor.behind, Cursor.past, byteSize, lastOr] using lexAt_of_step hstep

theorem lexAt_comment
    (cursor : Cursor) {body : List Char} (rest : List Char) (hbody : '\n' ∉ body) :
    lexAt cursor ('#' :: body ++ '\n' :: rest) =
      ⟨Lexeme.ofComment (body ++ '\n' :: rest), cursor.offset, String.ofList ('#' :: body)⟩ ::
        lexAt ⟨cursor.offset + byteSize ('#' :: body) + 1, some '\n', cursor.previous⟩ rest := by
  have htake : (body ++ '\n' :: rest).takeWhile (· != '\n') = body := by
    rw [List.takeWhile_append_of_pos]
    · simp
    · intro c hc
      simpa using fun h : c = '\n' => hbody (h ▸ hc)
  have hscan := Lexeme.scan_comment (body ++ '\n' :: rest)
  rw [htake] at hscan
  have hstep : Step cursor ('#' :: (body ++ '\n' :: rest)) _ _ _ :=
    .comment (not_atPod (by decide)) hscan (Lexeme.isComment_ofComment _)
  rw [List.take_left, List.drop_left] at hstep
  rw [List.cons_append, lexAt_of_step hstep, lexAt_newline]
  rfl

theorem lexAt_keyword
    (cursor : Cursor) {word : String} {kind : Kind} (rest : List Char)
    (hname : Lexeme.IsName word)
    (hword : Lexeme.ofWord word (' ' :: rest) = .token kind)
    (hkind : kind = .package ∨ kind = .sub ∨ kind = .use) :
    lexAt cursor (word.toList ++ ' ' :: rest) =
      ⟨kind, cursor.offset, word⟩ ::
        lexAt ⟨cursor.offset + word.utf8ByteSize + 1, some ' ',
          some ⟨kind, cursor.offset, word⟩⟩ rest := by
  obtain ⟨c, cs, htext, hc, hcs⟩ := hname
  have hofList : String.ofList (c :: cs) = word := by
    rw [← htext, String.ofList_toList]
  have hrest : Lexeme.EndsName (' ' :: rest) := Lexeme.endsName_cons (by decide) (by decide)
  have hscan := Lexeme.scan_name hc hcs hrest
  rw [hofList, hword] at hscan
  have hstep : Step cursor (c :: (cs ++ ' ' :: rest)) _ _ _ :=
    .plain (not_atPod (Lexeme.ne_of_isWordStart hc (by decide))) hscan
      (by rcases hkind with rfl | rfl | rfl <;> rfl)
      (by rcases hkind with rfl | rfl | rfl <;> rfl)
  rw [List.take_left, List.drop_left, hofList] at hstep
  rw [htext, List.cons_append, lexAt_of_step hstep, lexAt_space, Cursor.behind_offset, ← htext,
    byteSize_toList]
  rfl

/-- A character that is a token by itself and opens nothing. -/
theorem lexAt_punctuation
    (cursor : Cursor) {c : Char} {cs : List Char} (hpod : ¬ cursor.AtPod (c :: cs))
    (hscan : Lexeme.scan c cs = (.token .punctuation, 0)) (hc : c ≠ '/') :
    lexAt cursor (c :: cs) = ⟨.punctuation, cursor.offset, String.ofList [c]⟩ ::
      lexAt (cursor.behind ⟨.punctuation, cursor.offset, String.ofList [c]⟩ [c]) cs := by
  have hquote : Quoted.continuation? cursor.before cursor.previous
      ⟨.punctuation, cursor.offset, String.ofList [c]⟩ cs = none := by
    have hslash : String.ofList [c] ≠ "/" := by
      intro h
      rw [← String.toList_inj, String.toList_ofList] at h
      exact hc (List.cons.inj h).1
    simp only [Quoted.continuation?, hslash, false_and, if_false]
  exact lexAt_of_step (.plain hpod hscan rfl hquote)

/-- A word that opens no quoted construct is one token, whatever its kind, unless it is an end
marker at the start of a line. -/
theorem lexAt_word
    (cursor : Cursor) {word : String} {rest : List Char} (hname : Lexeme.IsName word)
    (hrest : Lexeme.EndsName rest)
    (hquote : ∀ t : Token, t.kind = .bareWord → t.text = word →
      Quoted.continuation? cursor.before cursor.previous t rest = none) :
    Lexeme.ofWord word rest = .endMarker ∧ atLineStart cursor.before = true ∧
      lexAt cursor (word.toList ++ rest) = [] ∨
    ∃ (kind : Kind) (next : Cursor),
      (Lexeme.ofWord word rest = .token kind ∨
        Lexeme.ofWord word rest = .endMarker ∧ atLineStart cursor.before = false ∧
          kind = .bareWord) ∧
      next.offset = cursor.offset + word.utf8ByteSize ∧
      lexAt cursor (word.toList ++ rest) = ⟨kind, cursor.offset, word⟩ :: lexAt next rest := by
  obtain ⟨c, cs, htext, hc, hcs⟩ := hname
  have hofList : String.ofList (c :: cs) = word := by
    rw [← htext, String.ofList_toList]
  have hscan := Lexeme.scan_name hc hcs hrest
  have hpod : ¬ cursor.AtPod (c :: (cs ++ rest)) :=
    not_atPod (Lexeme.ne_of_isWordStart hc (by decide))
  have hisWord := Lexeme.isWord_ofWord word rest
  have hstop : cursor.offset + byteSize (c :: cs) = cursor.offset + word.utf8ByteSize := by
    rw [← byteSize_toList, htext]
  rw [hofList] at hscan
  rw [htext, List.cons_append]
  cases hword : Lexeme.ofWord word rest with
  | blank | newline =>
      rw [hword] at hisWord
      cases hisWord
  | endMarker =>
      rw [hword] at hscan
      cases hline : atLineStart cursor.before with
      | true =>
          exact .inl ⟨rfl, rfl, lexAt_of_halts ⟨c, _, _, rfl, hpod, hscan, hline⟩⟩
      | false =>
          have hstep : Step cursor (c :: (cs ++ rest)) _ _ _ := .strayEnd hpod hscan hline
          rw [List.take_left, List.drop_left, hofList] at hstep
          exact .inr ⟨_, _, .inr ⟨rfl, rfl, rfl⟩, hstop, lexAt_of_step hstep⟩
  | token kind =>
      rw [hword] at hscan hisWord
      have hnone : Quoted.continuation? cursor.before cursor.previous
          ⟨kind, cursor.offset, word⟩ rest = none := by
        by_cases hkind : kind = .bareWord
        · exact hquote _ hkind rfl
        · cases kind <;> first | rfl | exact absurd rfl hkind | cases hisWord
      have hstep : Step cursor (c :: (cs ++ rest)) _ _ _ :=
        .plain hpod hscan (Kind.isComment_of_isWord hisWord)
          (by rw [List.take_left, List.drop_left, hofList]; exact hnone)
      rw [List.take_left, List.drop_left, hofList] at hstep
      exact .inr ⟨_, _, .inl rfl, hstop, lexAt_of_step hstep⟩

/-- A name inside a line is one token, whether it is an ordinary word or an end marker, unless it
opens a quoted construct. -/
theorem lexAt_name
    (cursor : Cursor) {name : String} {rest : List Char}
    (hname : Lexeme.IsName name) (hkeyword : name ∉ ["package", "sub", "use"])
    (hrest : Lexeme.EndsName rest) (hline : atLineStart cursor.before = false)
    (hquote : ∀ t : Token, t.kind = .bareWord →
      Quoted.continuation? cursor.before cursor.previous t rest = none) :
    ∃ before previous, lexAt cursor (name.toList ++ rest) =
      ⟨.bareWord, cursor.offset, name⟩ ::
        lexAt ⟨cursor.offset + name.utf8ByteSize, before, previous⟩ rest := by
  rcases lexAt_word cursor hname hrest fun t ht _ => hquote t ht with
    ⟨-, hstart, -⟩ | ⟨kind, ⟨offset, before, previous⟩, hkind, rfl, htokens⟩
  · rw [hline] at hstart
    cases hstart
  · have hbare : kind = .bareWord := by
      rcases hkind with hkind | ⟨-, -, rfl⟩
      · unfold Lexeme.ofWord at hkind
        split at hkind
        · exact (Lexeme.token.inj hkind).symm
        · split at hkind <;> cases hkind <;> first | rfl | simp at hkeyword
      · rfl
    rw [← hbare]
    exact ⟨before, previous, htokens⟩

theorem continuation?_semicolon
    {before : Option Char} {previous : Option Token} {token : Token} (rest : List Char)
    (hkind : token.kind = .bareWord) :
    Quoted.continuation? before previous token (';' :: rest) = none := by
  have hextent : ∀ twoParts, Quoted.extent twoParts (';' :: rest) = none := by
    intro twoParts
    have hopens : Quoted.opensBody 0 ';' = false := by decide
    simp [Quoted.extent, hopens]
  simp [Quoted.continuation?, hkind, hextent]

/-- The name of a routine opens no quoted construct, whatever follows it. -/
theorem continuation?_after_sub
    {before : Option Char} {previous token : Token} (rest : List Char)
    (hprevious : previous.kind = .sub) (hkind : token.kind = .bareWord) :
    Quoted.continuation? before (some previous) token rest = none := by
  simp [Quoted.continuation?, hkind, hprevious]

end MarkerDoc.Token
