import MarkerDoc.Proofs.LineEnding.Quoted
import MarkerDoc.Proofs.Scanner

/-!
# Carriage returns and tokens

The lexer is run on a source and on its form with carriage returns.  Both runs stay side by side:
after the same front of the source they have the same character behind them and are judged by the
same last token, so each round gives corresponding tokens.  Only a line break and a comment take a
round more or less, since the carriage return is either passed on its own or swallowed by a comment
in front of it.
-/

namespace MarkerDoc

open Text

/-- The source with a carriage return before every line feed. -/
def withReturns (source : String) : String :=
  String.ofList (crlf source.toList)

@[simp] theorem toList_withReturns (source : String) :
    (withReturns source).toList = crlf source.toList :=
  String.toList_ofList

/-! ## Places -/

/-- The same place in a source and in its form with carriage returns. -/
def Aligned (source : String) (n n' : Nat) : Prop :=
  ∃ front rest, source.toList = front ++ rest ∧ n = byteSize front ∧ n' = byteSize (crlf front)

section

variable {source : String} {m m' n n' : Nat}

theorem byteSize_eq_zero_iff (cs : List Char) : byteSize cs = 0 ↔ cs = [] := by
  constructor
  · intro hzero
    by_contra hne
    exact absurd hzero (Token.byteSize_pos hne).ne'
  · rintro rfl
    rfl

theorem crlf_eq_nil_iff (cs : List Char) : crlf cs = [] ↔ cs = [] := by
  cases cs with
  | nil => simp
  | cons c cs =>
      by_cases hc : c = '\n'
      · simp [hc]
      · simp [crlf_cons_of_ne hc]

theorem Aligned.lt_iff (hm : Aligned source m m') (hn : Aligned source n n') :
    m < n ↔ m' < n' := by
  obtain ⟨front, rest, hsource, rfl, rfl⟩ := hm
  obtain ⟨front', rest', hsource', rfl, rfl⟩ := hn
  have hprefix : front <+: source.toList := ⟨rest, hsource.symm⟩
  have hprefix' : front' <+: source.toList := ⟨rest', hsource'.symm⟩
  rcases List.prefix_or_prefix_of_prefix hprefix hprefix' with ⟨gap, rfl⟩ | ⟨gap, rfl⟩
  · have hgap := byteSize_eq_zero_iff gap
    have hgap' := (byteSize_eq_zero_iff (crlf gap)).trans (crlf_eq_nil_iff gap)
    rw [crlf_append, Token.byteSize_append, Token.byteSize_append]
    rw [← hgap'] at hgap
    omega
  · rw [crlf_append, Token.byteSize_append, Token.byteSize_append]
    omega

theorem Aligned.lineAt_eq (h : Aligned source n n') :
    lineAt (withReturns source) n' = lineAt source n := by
  obtain ⟨front, rest, hsource, rfl, rfl⟩ := h
  have hsource' : (withReturns source).toList = crlf front ++ crlf rest := by
    rw [toList_withReturns, hsource, crlf_append]
  rw [lineAt_byteSize hsource, lineAt_byteSize hsource', count_newline_crlf]

/-- What stands in front of a place on its line is the same with both line endings. -/
theorem takeWhile_reverse_crlf (front : List Char) :
    (crlf front).reverse.takeWhile (· != '\n') = front.reverse.takeWhile (· != '\n') := by
  induction front using List.reverseRecOn with
  | nil => rfl
  | append_singleton front c ih =>
      by_cases hc : c = '\n'
      · simp [crlf_append, hc]
      · simp [crlf_append, crlf_cons_of_ne hc, hc, ih]

theorem Aligned.opensLine_eq (h : Aligned source n n') :
    opensLine (withReturns source) n' = opensLine source n := by
  obtain ⟨front, rest, hsource, rfl, rfl⟩ := h
  rw [opensLine, opensLine, toList_withReturns, hsource, crlf_append, charsBefore_byteSize,
    charsBefore_byteSize, takeWhile_reverse_crlf]

end

/-! ## Lexemes of comments -/

namespace Lexeme

theorem ofComment_crlf (cs : List Char) : ofComment (crlf cs) = ofComment cs := by
  match cs with
  | [] =>
      rfl
  | [c] =>
      by_cases hc : c = '\n'
      · subst hc
        rfl
      · rw [crlf_cons_of_ne hc, crlf_nil]
  | c :: d :: rest =>
      by_cases hc : c = '\n'
      · subst hc
        simp [ofComment]
      · rw [crlf_cons_of_ne hc]
        by_cases hd : d = '\n'
        · subst hd
          unfold ofComment
          split <;> split <;> simp_all
        · rw [crlf_cons_of_ne hd]
          unfold ofComment
          split <;> split <;> simp_all

/-- A word stays within its line. -/
theorem newline_not_mem_of_isWord
    {c : Char} {cs : List Char} {lexeme : Lexeme} {n : Nat} (hscan : scan c cs = (lexeme, n))
    (hword : lexeme.isWord = true) : '\n' ∉ c :: cs.take n := by
  have hc : isWordStart c = true := by
    rw [← isWord_scan c cs, hscan]
    exact hword
  rw [scan_of_isWordStart hc] at hscan
  obtain rfl := (Prod.mk.inj hscan).2
  rintro (_ | ⟨_, hmem⟩)
  · exact absurd hc (by decide)
  · exact newline_not_mem_bareWord cs hmem

end Lexeme

namespace Token

/-! ## Two runs side by side -/

/-- The same token in a source and in its form with carriage returns, at the same place.  A word
stays within its line; the text of a comment may have the carriage return that ends its line. -/
structure Corresponds (source : String) (t t' : Token) : Prop where
  kind : t'.kind = t.kind
  start : Aligned source t.start t'.start
  plain : t.kind.isComment = false →
    t'.text = withReturns t.text ∧ Aligned source t.stop t'.stop
  word : t.kind.isWord = true → t'.text = t.text
  comment : t.kind.isComment = true →
    t'.text.toList = t.text.toList ∨ t'.text.toList = t.text.toList ++ ['\r']

/-- Two positions of the lexer in front of the same rest of the source. -/
structure Cursor.Tracks (cursor : Cursor) (source : String) (cs : List Char) (cursor' : Cursor) :
    Prop where
  place : ∃ front, source.toList = front ++ cs ∧ cursor.offset = byteSize front ∧
    cursor'.offset = byteSize (crlf front)
  before : cursor'.before = cursor.before
  previous : Option.Rel SameText cursor.previous cursor'.previous

section

variable {source : String} {run rest cs : List Char} {cursor cursor' : Cursor}

theorem Cursor.Tracks.aligned (h : cursor.Tracks source cs cursor') :
    Aligned source cursor.offset cursor'.offset := by
  obtain ⟨front, hsource, hoffset, hoffset'⟩ := h.place
  exact ⟨front, cs, hsource, hoffset, hoffset'⟩

theorem Cursor.Tracks.past (h : cursor.Tracks source (run ++ rest) cursor') :
    (cursor.past run).Tracks source rest (cursor'.past (crlf run)) := by
  obtain ⟨front, hsource, hoffset, hoffset'⟩ := h.place
  refine ⟨⟨front ++ run, by simpa using hsource, ?_, ?_⟩, ?_, h.previous⟩
  · simp [Cursor.past, hoffset, byteSize_append]
  · simp [Cursor.past, hoffset', crlf_append, byteSize_append]
  · simp [Cursor.past, lastOr, getLast?_crlf, h.before]

theorem Cursor.Tracks.behind
    {t t' : Token} (h : cursor.Tracks source (run ++ rest) cursor') (ht : t.SameText t') :
    (cursor.behind t run).Tracks source rest (cursor'.behind t' (crlf run)) :=
  ⟨h.past.place, h.past.before, .some ht⟩

/-- A run that is read as one token gives corresponding tokens in both forms. -/
theorem Cursor.Tracks.corresponds
    (h : cursor.Tracks source (run ++ rest) cursor') {kind : Kind}
    (hkind : kind.isComment = false) (hword : kind.isWord = true → '\n' ∉ run) :
    Corresponds source ⟨kind, cursor.offset, String.ofList run⟩
      ⟨kind, cursor'.offset, String.ofList (crlf run)⟩ := by
  refine ⟨rfl, h.aligned, fun _ => ⟨by simp [withReturns], ?_⟩, fun hkind => ?_, fun hcomment => ?_⟩
  · simpa only [stop, utf8ByteSize_ofList, Cursor.past] using h.past.aligned
  · rw [crlf_of_not_mem (hword hkind)]
  · exact absurd (hkind.symm.trans hcomment) Bool.false_ne_true

theorem Corresponds.of_isComment
    {t t' : Token} (hkind : t'.kind = t.kind) (hstart : Aligned source t.start t'.start)
    (hcomment : t.kind.isComment = true)
    (htext : t'.text.toList = t.text.toList ∨ t'.text.toList = t.text.toList ++ ['\r']) :
    Corresponds source t t' := by
  refine ⟨hkind, hstart, fun hplain => ?_, fun hword => ?_, fun _ => htext⟩
  · exact absurd (hplain.symm.trans hcomment) Bool.false_ne_true
  · exact absurd ((Kind.isComment_of_isWord hword).symm.trans hcomment) Bool.false_ne_true

theorem sameText_ofList (kind : Kind) (start start' : Nat) (run : List Char) :
    SameText ⟨kind, start, String.ofList run⟩ ⟨kind, start', String.ofList (crlf run)⟩ :=
  ⟨rfl, by simp⟩

theorem Cursor.Tracks.atPod_iff (h : cursor.Tracks source cs cursor') :
    cursor'.AtPod (crlf cs) ↔ cursor.AtPod cs := by
  rw [Cursor.AtPod, Cursor.AtPod, h.before, Pod.opens_crlf]

theorem Cursor.Tracks.continuation?_eq
    {c : Char} (h : cursor.Tracks source (c :: cs) cursor') (hline : c ≠ '\n') (kind : Kind)
    (n : Nat) :
    Quoted.continuation? cursor'.before cursor'.previous
        ⟨kind, cursor'.offset, String.ofList (c :: (crlf cs).take (spread cs n))⟩
        ((crlf cs).drop (spread cs n)) =
      (Quoted.continuation? cursor.before cursor.previous
        ⟨kind, cursor.offset, String.ofList (c :: cs.take n)⟩ (cs.drop n)).map
          (spread (cs.drop n)) := by
  rw [cons_take_spread hline, drop_spread, h.before]
  exact Quoted.continuation?_crlf h.previous (sameText_ofList _ _ _ _) (cs.drop n)

/-- Both runs go on, each by one round or two, to places side by side. -/
inductive Advances (source : String) (cs : List Char) (cursor cursor' : Cursor) : Prop
  | silent {next next' : Cursor} {rest : List Char}
      (left : lexAt cursor cs = lexAt next rest)
      (right : lexAt cursor' (crlf cs) = lexAt next' (crlf rest))
      (shorter : rest.length < cs.length) (tracks : next.Tracks source rest next') :
      Advances source cs cursor cursor'
  | token {t t' : Token} {next next' : Cursor} {rest : List Char}
      (left : lexAt cursor cs = t :: lexAt next rest)
      (right : lexAt cursor' (crlf cs) = t' :: lexAt next' (crlf rest))
      (shorter : rest.length < cs.length) (tracks : next.Tracks source rest next')
      (corresponds : Corresponds source t t') : Advances source cs cursor cursor'

theorem advances_newline (h : cursor.Tracks source ('\n' :: rest) cursor') :
    Advances source ('\n' :: rest) cursor cursor' := by
  have hreturn : lexAt cursor' (crlf ('\n' :: rest)) =
      lexAt (cursor'.past ['\r']) ('\n' :: crlf rest) :=
    lexAt_of_step (.gap (not_atPod (by decide)) (.inl rfl))
  have hfeed : lexAt (cursor'.past ['\r']) ('\n' :: crlf rest) =
      lexAt (cursor'.past (crlf ['\n'])) (crlf rest) :=
    lexAt_of_step (.gap (not_atPod (by decide)) (.inr rfl))
  have htracks : (cursor.past ['\n']).Tracks source rest (cursor'.past (crlf ['\n'])) :=
    Cursor.Tracks.past h
  exact .silent (lexAt_of_step (.gap (not_atPod (by decide)) (.inr rfl))) (hreturn.trans hfeed)
    (by simp) htracks

/-- A comment on the last line, which no line break ends, is the same in both forms. -/
theorem advances_comment_last
    (h : cursor.Tracks source ('#' :: cs) cursor') (hcs : '\n' ∉ cs) :
    Advances source ('#' :: cs) cursor cursor' := by
  have hscan := Lexeme.scan_comment cs
  have htake : cs.takeWhile (· != '\n') = cs := by
    rw [List.takeWhile_eq_self_iff]
    intro c hc
    simpa using fun heq : c = '\n' => hcs (heq ▸ hc)
  rw [htake] at hscan
  have hstep : ∀ cursor : Cursor, lexAt cursor ('#' :: cs) =
      ⟨Lexeme.ofComment cs, cursor.offset, String.ofList ('#' :: cs)⟩ ::
        lexAt (cursor.past ('#' :: cs)) [] := by
    intro cursor
    have hstep : Step cursor ('#' :: cs) _ _ _ :=
      .comment (not_atPod (by decide)) hscan (Lexeme.isComment_ofComment cs)
    simpa using lexAt_of_step hstep
  have hcrlf : crlf ('#' :: cs) = '#' :: cs := crlf_of_not_mem (by simpa using hcs)
  have htracks : (cursor.past ('#' :: cs)).Tracks source [] (cursor'.past (crlf ('#' :: cs))) :=
    Cursor.Tracks.past (by rwa [List.append_nil])
  rw [hcrlf] at htracks
  have hright : lexAt cursor' (crlf ('#' :: cs)) =
      ⟨Lexeme.ofComment cs, cursor'.offset, String.ofList ('#' :: cs)⟩ ::
        lexAt (cursor'.past ('#' :: cs)) (crlf []) := by
    rw [hcrlf]
    exact hstep cursor'
  refine .token (hstep cursor) hright (by simp) htracks ?_
  exact .of_isComment rfl h.aligned (Lexeme.isComment_ofComment cs) (.inl rfl)

/-- A comment takes in the carriage return that ends its line, and only the line feed is left. -/
theorem advances_comment
    {body : List Char} (h : cursor.Tracks source ('#' :: body ++ '\n' :: rest) cursor')
    (hbody : '\n' ∉ body) : Advances source ('#' :: body ++ '\n' :: rest) cursor cursor' := by
  have hbody' : '\n' ∉ body ++ ['\r'] := by simpa using hbody
  have hcrlf : crlf ('#' :: body ++ '\n' :: rest) =
      '#' :: (body ++ ['\r']) ++ '\n' :: crlf rest := by
    rw [crlf_append, crlf_of_not_mem (by simpa using hbody), crlf_newline]
    simp
  have hline : crlf ('#' :: body ++ ['\n']) = '#' :: (body ++ ['\r']) ++ ['\n'] := by
    rw [crlf_append, crlf_of_not_mem (by simpa using hbody), crlf_newline]
    simp
  have htracks : (cursor.past ('#' :: body ++ ['\n'])).Tracks source rest
      (cursor'.past (crlf ('#' :: body ++ ['\n']))) :=
    Cursor.Tracks.past (by simpa using h)
  have hpast : ∀ (cursor : Cursor) (body : List Char), cursor.past ('#' :: body ++ ['\n']) =
      ⟨cursor.offset + byteSize ('#' :: body) + 1, some '\n', cursor.previous⟩ := by
    intro cursor body
    have hsize : byteSize ('#' :: body ++ ['\n']) = byteSize ('#' :: body) + 1 :=
      byteSize_append ('#' :: body) ['\n']
    have hlast : ('#' :: body ++ ['\n']).getLast? = some '\n' := List.getLast?_concat
    rw [Cursor.past, hsize, lastOr, hlast, ← Nat.add_assoc]
    rfl
  have hkind : Lexeme.ofComment (body ++ ['\r'] ++ '\n' :: crlf rest) =
      Lexeme.ofComment (body ++ '\n' :: rest) := by
    rw [← Lexeme.ofComment_crlf (body ++ '\n' :: rest), crlf_append, crlf_of_not_mem hbody,
      crlf_newline]
    simp
  rw [hline, hpast, hpast] at htracks
  have hright := lexAt_comment cursor' (crlf rest) hbody'
  rw [← hcrlf, hkind] at hright
  refine .token (lexAt_comment cursor rest hbody) hright ?_ htracks ?_
  · simp only [List.length_append, List.length_cons]
    omega
  · exact .of_isComment rfl h.aligned (Lexeme.isComment_ofComment _) (.inr (by simp))

/-- A round at a place where neither a line break nor a comment begins is the same in both runs. -/
theorem advances_of_step
    {c : Char} {found : Option Token} {next : Cursor}
    (h : cursor.Tracks source (c :: cs) cursor') (hline : c ≠ '\n') (hhash : c ≠ '#')
    (hstep : Step cursor (c :: cs) found next rest) :
    Advances source (c :: cs) cursor cursor' := by
  have hshorter := hstep.length_lt
  have hcrlf : crlf (c :: cs) = c :: crlf cs := crlf_cons_of_ne hline cs
  have hpod' : ¬ cursor.AtPod (c :: cs) → ¬ cursor'.AtPod (c :: crlf cs) := by
    rw [← hcrlf, h.atPod_iff]
    exact id
  have hscan' := Lexeme.scan_crlf hline hhash cs
  have hsplit : ∀ n, cursor.Tracks source ((c :: cs.take n) ++ cs.drop n) cursor' := by
    simpa using h
  have hleft := lexAt_of_step hstep
  cases hstep with
  | pod hpod =>
      have hright := lexAt_pod (h.atPod_iff.mpr hpod)
      rw [Pod.length_crlf, take_spread, drop_spread] at hright
      have hleft := lexAt_pod hpod
      refine .silent hleft hright ?_ (Cursor.Tracks.past (by rwa [List.take_append_drop]))
      have hpos := podLength_pos c cs
      simp only [List.length_drop, List.length_cons]
      omega
  | @gap _ _ n hpod hscan =>
      have hgap : Lexeme.scan c (crlf rest) = (.blank, spread rest n) ∨
          Lexeme.scan c (crlf rest) = (.newline, spread rest n) := by
        rcases hscan with hscan | hscan <;> simp [hscan', hscan]
      have hright := lexAt_of_step (.gap (hpod' hpod) hgap)
      have hsingle : crlf [c] = [c] := crlf_cons_of_ne hline []
      rw [← hcrlf, ← hsingle] at hright
      exact .silent hleft hright hshorter (Cursor.Tracks.past h)
  | @strayEnd _ _ n hpod hscan hstart =>
      rw [hscan] at hscan'
      have hright := lexAt_of_step (.strayEnd (hpod' hpod) hscan' (h.before ▸ hstart))
      rw [← hcrlf, cons_take_spread hline, drop_spread] at hright
      have hword := Lexeme.newline_not_mem_of_isWord hscan rfl
      exact .token hleft hright hshorter (hsplit n).past
        ((hsplit n).corresponds rfl fun _ => hword)
  | @quoted _ _ kind n m hpod hscan hquote =>
      rw [hscan] at hscan'
      have hquote' := h.continuation?_eq hline kind n
      rw [hquote] at hquote'
      have hright := lexAt_of_step (.quoted (hpod' hpod) hscan' hquote')
      rw [← hcrlf, ← spread_add, cons_take_spread hline, drop_spread] at hright
      exact .token hleft hright hshorter ((hsplit (n + m)).behind (sameText_ofList _ _ _ _))
        ((hsplit (n + m)).corresponds rfl (by simp [Kind.isWord]))
  | @comment _ _ kind n hpod hscan hkind =>
      have hcomment := Lexeme.isComment_scan hhash cs
      rw [hscan] at hcomment
      exact absurd (hcomment.symm.trans hkind) Bool.false_ne_true
  | @plain _ _ kind n hpod hscan hkind hquote =>
      rw [hscan] at hscan'
      have hquote' := h.continuation?_eq hline kind n
      rw [hquote] at hquote'
      have hright := lexAt_of_step (.plain (hpod' hpod) hscan' hkind hquote')
      rw [← hcrlf, cons_take_spread hline, drop_spread] at hright
      exact .token hleft hright hshorter ((hsplit n).behind (sameText_ofList _ _ _ _))
        ((hsplit n).corresponds hkind fun hword => Lexeme.newline_not_mem_of_isWord hscan hword)

theorem Halts.crlf
    (h : cursor.Tracks source cs cursor') (hcs : '\n' ∉ cs.head?) (hhalt : Halts cursor cs) :
    Halts cursor' (crlf cs) := by
  obtain ⟨c, rest, n, rfl, hpod, hscan, hstart⟩ := hhalt
  have hline : c ≠ '\n' := by simpa using hcs
  have hhash : c ≠ '#' := by
    rintro rfl
    cases (Lexeme.scan_comment rest).symm.trans hscan
  refine ⟨c, crlf rest, spread rest n, crlf_cons_of_ne hline rest, mt h.atPod_iff.mp hpod, ?_,
    h.before ▸ hstart⟩
  rw [Lexeme.scan_crlf hline hhash, hscan]

/-- Before any character the two runs are over together or go on together. -/
theorem halts_or_advances {c : Char} (h : cursor.Tracks source (c :: cs) cursor') :
    Halts cursor (c :: cs) ∧ Halts cursor' (crlf (c :: cs)) ∨
      Advances source (c :: cs) cursor cursor' := by
  by_cases hline : c = '\n'
  · subst hline
    exact .inr (advances_newline h)
  by_cases hhash : c = '#'
  · subst hhash
    by_cases hcs : '\n' ∈ cs
    · obtain ⟨body, rest, rfl, hbody⟩ := List.eq_append_cons_of_mem hcs
      exact .inr (advances_comment h hbody)
    · exact .inr (advances_comment_last h hcs)
  rcases step_or_halts cursor c cs with hhalt | ⟨found, next, rest, hstep⟩
  · exact .inl ⟨hhalt, hhalt.crlf h (by simpa using hline)⟩
  · exact .inr (advances_of_step h hline hhash hstep)

/-- Two runs that stand side by side give corresponding tokens. -/
theorem forall₂_lexAt (h : cursor.Tracks source cs cursor') :
    List.Forall₂ (Corresponds source) (lexAt cursor cs) (lexAt cursor' (crlf cs)) := by
  -- The runs differ in their number of rounds, so the induction is on what is left of the source.
  induction hlength : cs.length using Nat.strong_induction_on generalizing cursor cursor' cs with
  | _ length ih =>
      cases cs with
      | nil =>
          rw [crlf_nil, lexAt_nil, lexAt_nil]
          exact .nil
      | cons c cs =>
          rcases halts_or_advances h with ⟨hhalt, hhalt'⟩ | hadvances
          · rw [lexAt_of_halts hhalt, lexAt_of_halts hhalt']
            exact .nil
          cases hadvances with
          | silent hleft hright hshorter htracks =>
              rw [hleft, hright]
              exact ih _ (hlength ▸ hshorter) htracks rfl
          | token hleft hright hshorter htracks hcorresponds =>
              rw [hleft, hright]
              exact .cons hcorresponds (ih _ (hlength ▸ hshorter) htracks rfl)

theorem forall₂_lex (source : String) :
    List.Forall₂ (Corresponds source) (lex source) (lex (withReturns source)) := by
  rw [lex_eq_lexAt, lex_eq_lexAt, withReturns, String.toList_ofList]
  exact forall₂_lexAt ⟨⟨[], rfl, rfl, rfl⟩, rfl, .none⟩

end

end Token

end MarkerDoc
