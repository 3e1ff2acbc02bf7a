import MarkerDoc.Proofs.LookAhead.Lexer
import MarkerDoc.Proofs.Translation

/-!
# Blank lines

Blank lines may be put in wherever a line begins, outside of tokens: between statements, inside a
statement or a documentation block, or in text that the lexer has searched in vain for the end of a
quote-like construct.  The elements and the documentation stay the same, and what stands behind the
blank lines moves down by their number.
-/

namespace MarkerDoc

/-- A number that grows by `k` from a certain one on. -/
def movedFrom (place k n : Nat) : Nat :=
  if place ≤ n then n + k else n

theorem movedFrom_of_le {place k n : Nat} (h : place ≤ n) : movedFrom place k n = n + k :=
  if_pos h

theorem movedFrom_of_lt {place k n : Nat} (h : n < place) : movedFrom place k n = n :=
  if_neg (Nat.not_le.mpr h)

theorem movedFrom_lt_iff (place k m n : Nat) :
    movedFrom place k m < movedFrom place k n ↔ m < n := by
  unfold movedFrom
  split_ifs <;> omega

/-- As many line breaks. -/
def blankLines (k : Nat) : List Char :=
  List.replicate k '\n'

theorem blankLines_succ (k : Nat) : blankLines (k + 1) = '\n' :: blankLines k :=
  rfl

theorem byteSize_blankLines (k : Nat) : byteSize (blankLines k) = k := by
  induction k with
  | zero => rfl
  | succ k ih =>
      have hsize : ('\n' : Char).utf8Size = 1 := rfl
      rw [blankLines_succ, Token.byteSize_cons, ih, hsize, Nat.add_comm]

/-! ## Looking past blank lines -/

theorem Quoted.LooksAhead.blankLines
    {read : Quoted.Reader} (h : Quoted.LooksAhead read) {cs : List Char} (hcs : read cs = none)
    (k : Nat) : read (blankLines k ++ cs) = none := by
  induction k with
  | zero => exact hcs
  | succ k ih => rw [blankLines_succ, List.cons_append, h.newline, ih, Option.map_none]

theorem Pod.length_blankLines (k : Nat) (cs : List Char) :
    length (blankLines k ++ cs) = (blankLines k).length + length cs := by
  induction k with
  | zero => simp [blankLines]
  | succ k ih =>
      have hline : isCut ['\n'] = false := by decide
      unfold length at ih ⊢
      rw [blankLines_succ, List.cons_append, lengthFrom, if_pos rfl, List.reverse_singleton, hline,
        if_neg Bool.false_ne_true, ih, List.length_cons]
      omega

namespace Token

/-! ## A run that is moved as a whole -/

def moveBy (k : Nat) (t : Token) : Token :=
  { t with start := t.start + k }

/-- The same position, further down by `k`, as far as it matters for what follows. -/
structure Cursor.Follows (k : Nat) (cursor cursor' : Cursor) : Prop where
  offset : cursor'.offset = cursor.offset + k
  before : cursor'.before = cursor.before ∨
    atLineStart cursor.before = true ∧ atLineStart cursor'.before = true
  previous : cursor'.previous.map (fun t => (t.kind, t.text)) =
    cursor.previous.map fun t => (t.kind, t.text)

section

variable {k : Nat} {cursor cursor' : Cursor}

theorem Cursor.Follows.atLineStart_eq (h : cursor.Follows k cursor') :
    atLineStart cursor'.before = atLineStart cursor.before := by
  rcases h.before with hsame | ⟨hstart, hstart'⟩
  · rw [hsame]
  · rw [hstart, hstart']

theorem Cursor.Follows.atPod_iff (h : cursor.Follows k cursor') (cs : List Char) :
    cursor'.AtPod cs ↔ cursor.AtPod cs := by
  rw [Cursor.AtPod, Cursor.AtPod, h.atLineStart_eq]

theorem Cursor.Follows.past (h : cursor.Follows k cursor') {run : List Char} (hrun : run ≠ []) :
    (cursor.past run).Follows k (cursor'.past run) := by
  refine ⟨?_, .inl ?_, h.previous⟩
  · simp only [Cursor.past, h.offset]
    omega
  · have hlast := List.getLast?_eq_some_getLast hrun
    simp [Cursor.past, lastOr, hlast]

theorem Cursor.Follows.behind
    (h : cursor.Follows k cursor') {run : List Char} (hrun : run ≠ []) (t : Token) :
    (cursor.behind t run).Follows k (cursor'.behind (moveBy k t) run) :=
  ⟨(h.past hrun).offset, (h.past hrun).before, rfl⟩

theorem Cursor.Follows.continuation?_eq
    (h : cursor.Follows k cursor') (kind : Kind) (start start' : Nat) (text : String)
    (after : List Char) :
    Quoted.continuation? cursor'.before cursor'.previous ⟨kind, start', text⟩ after =
      Quoted.continuation? cursor.before cursor.previous ⟨kind, start, text⟩ after := by
  have hbefore : ∀ c, c ≠ '\n' → (cursor'.before = some c ↔ cursor.before = some c) := by
    intro c hc
    rcases h.before with hsame | ⟨hstart, hstart'⟩
    · rw [hsame]
    · simp only [atLineStart, Bool.or_eq_true, beq_iff_eq] at hstart hstart'
      constructor
      · intro heq
        simp [heq, hc] at hstart'
      · intro heq
        simp [heq, hc] at hstart
  have hprevious := h.previous
  have hkinds : cursor'.previous.map (·.kind) = cursor.previous.map (·.kind) := by
    have hfst := congrArg (Option.map Prod.fst) hprevious
    rwa [Option.map_map, Option.map_map] at hfst
  have hslash : Quoted.slashOpensMatch cursor'.previous =
      Quoted.slashOpensMatch cursor.previous := by
    cases hleft : cursor.previous <;> cases hright : cursor'.previous <;>
      simp_all [Quoted.slashOpensMatch]
  simp only [Quoted.continuation?, hbefore '-' (by decide), hbefore '>' (by decide), hkinds,
    hslash]

theorem Step.follows
    {next : Cursor} {cs rest : List Char} {found : Option Token}
    (hstep : Step cursor cs found next rest) (h : cursor.Follows k cursor') :
    ∃ next', Step cursor' cs (found.map (moveBy k)) next' rest ∧ next.Follows k next' := by
  have hpod' : ∀ {cs}, ¬ cursor.AtPod cs → ¬ cursor'.AtPod cs :=
    fun hpod => mt (h.atPod_iff _).mp hpod
  cases hstep with
  | @pod c cs hpod =>
      refine ⟨_, .pod ((h.atPod_iff _).mpr hpod), h.past ?_⟩
      simpa using (podLength_pos c cs).ne'
  | gap hpod hscan =>
      exact ⟨_, .gap (hpod' hpod) hscan, h.past (List.cons_ne_nil _ _)⟩
  | @strayEnd c cs n hpod hscan hstart =>
      have hstep' : Step cursor' (c :: cs) _ _ _ :=
        .strayEnd (hpod' hpod) hscan (h.atLineStart_eq.trans hstart)
      rw [h.offset] at hstep'
      exact ⟨_, hstep', h.past (List.cons_ne_nil _ _)⟩
  | @quoted c cs kind n m hpod hscan hquote =>
      have hquote' := (h.continuation?_eq kind cursor.offset cursor'.offset _ _).trans hquote
      have hstep' := Step.quoted (hpod' hpod) hscan hquote'
      rw [h.offset] at hstep'
      exact ⟨_, hstep', h.behind (List.cons_ne_nil _ _) _⟩
  | @comment c cs kind n hpod hscan hkind =>
      have hstep' : Step cursor' (c :: cs) _ _ _ := .comment (hpod' hpod) hscan hkind
      rw [h.offset] at hstep'
      exact ⟨_, hstep', h.past (List.cons_ne_nil _ _)⟩
  | @plain c cs kind n hpod hscan hkind hquote =>
      have hquote' := (h.continuation?_eq kind cursor.offset cursor'.offset _ _).trans hquote
      have hstep' := Step.plain (hpod' hpod) hscan hkind hquote'
      rw [h.offset] at hstep'
      exact ⟨_, hstep', h.behind (List.cons_ne_nil _ _) _⟩

theorem lexAt_of_follows (h : cursor.Follows k cursor') (cs : List Char) :
    lexAt cursor' cs = (lexAt cursor cs).map (moveBy k) := by
  refine lexAt_induction
    (P := fun cursor cs ts => ∀ cursor', cursor.Follows k cursor' →
      lexAt cursor' cs = ts.map (moveBy k)) ?_ ?_ ?_ cursor cs cursor' h
  · intro cursor cursor' _
    exact lexAt_nil cursor'
  · rintro cursor cs ⟨c, rest, n, rfl, hpod, hscan, hstart⟩ cursor' h
    apply lexAt_of_halts
    exact ⟨c, rest, n, rfl, mt (h.atPod_iff _).mp hpod, hscan, h.atLineStart_eq.trans hstart⟩
  · intro cursor cs found next rest hstep ih cursor' h
    obtain ⟨next', hstep', hnext⟩ := hstep.follows h
    rw [lexAt_of_step hstep', ih next' hnext, List.map_append]
    cases found <;> rfl

end

/-! ## A run with blank lines in it -/

/-- The token in its place after blank lines. -/
def moveDown (place k : Nat) (t : Token) : Token :=
  { t with start := movedFrom place k t.start }

section

variable {cursor : Cursor} {front behind : List Char} {place : Nat} (k : Nat)

theorem map_moveBy
    {next : Cursor} {cs : List Char} (h : place ≤ next.offset) :
    (lexAt next cs).map (moveBy k) = (lexAt next cs).map (moveDown place k) := by
  apply List.map_congr_left
  intro t ht
  have hstart := (start_lt_stop_of_mem_lexAt ht).1
  rw [moveBy, moveDown, movedFrom_of_le (by omega)]

theorem exists_lexAt_blankLines (h : atLineStart cursor.before = true) (cs : List Char) :
    ∃ next, lexAt cursor (blankLines k ++ cs) = lexAt next cs ∧ cursor.Follows k next := by
  induction k generalizing cursor with
  | zero => exact ⟨cursor, rfl, rfl, .inl rfl, rfl⟩
  | succ k ih =>
      have hstart : atLineStart (some '\n') = true := rfl
      obtain ⟨next, hnext, hfollows⟩ :=
        @ih ⟨cursor.offset + 1, some '\n', cursor.previous⟩ hstart
      refine ⟨next, ?_, ?_, .inr ⟨h, ?_⟩, hfollows.previous⟩
      · rw [blankLines_succ, List.cons_append, lexAt_newline, hnext]
      · have hoffset : next.offset = cursor.offset + 1 + k := hfollows.offset
        omega
      · rw [hfollows.atLineStart_eq]
        exact hstart

/-- A block that runs on over the blank lines. -/
theorem follows_past_blankLines (hfront : EndsLine front) (passed : List Char) :
    (cursor.past (front ++ passed)).Follows k
      (cursor.past (front ++ (blankLines k ++ passed))) := by
  unfold EndsLine at hfront
  have hlines : (front ++ blankLines k).getLast? = some '\n' := by
    cases k with
    | zero => simpa [blankLines] using hfront
    | succ k => simp [blankLines, List.getLast?_append, List.getLast?_replicate]
  have hlast : ∀ lines : List Char, lines.getLast? = some '\n' →
      (lines ++ passed).getLast? = passed.getLast?.or (some '\n') := by
    intro lines h
    rw [List.getLast?_append, h]
  refine ⟨?_, .inl ?_, rfl⟩
  · simp only [Cursor.past, byteSize_append, byteSize_blankLines]
    omega
  · simp only [Cursor.past, lastOr]
    rw [← List.append_assoc, hlast _ hlines, hlast _ hfront]

/-- Blank lines behind a documentation block that is still open only make the block longer. -/
theorem lexAt_block_blankLines
    (hfront : EndsLine front) (hplace : place ≤ (cursor.past front).offset)
    (hblock : ∀ behind, lexAt cursor (front ++ behind) =
      lexAt (cursor.past (front ++ behind.take (Pod.length behind)))
        (behind.drop (Pod.length behind))) :
    lexAt cursor (front ++ (blankLines k ++ behind)) =
      (lexAt cursor (front ++ behind)).map (moveDown place k) := by
  have htake : (blankLines k ++ behind).take (Pod.length (blankLines k ++ behind)) =
      blankLines k ++ behind.take (Pod.length behind) := by
    rw [Pod.length_blankLines, List.take_length_add_append]
  have hdrop : (blankLines k ++ behind).drop (Pod.length (blankLines k ++ behind)) =
      behind.drop (Pod.length behind) := by
    rw [Pod.length_blankLines, List.drop_length_add_append]
  have hfollows : (cursor.past (front ++ behind.take (Pod.length behind))).Follows k
      (cursor.past (front ++ (blankLines k ++ behind.take (Pod.length behind)))) :=
    follows_past_blankLines k hfront _
  rw [hblock behind, hblock (blankLines k ++ behind), htake, hdrop, lexAt_of_follows hfollows,
    map_moveBy]
  simp only [Cursor.past, byteSize_append] at hplace ⊢
  omega

theorem map_moveDown_found
    {next : Cursor} {rest run : List Char} {found : Option Token}
    (hrun : Step.Passes cursor front found next rest run) (hfront : front ≠ [])
    (hplace : (cursor.past front).offset ≤ place) :
    found.toList.map (moveDown place k) = found.toList := by
  cases found with
  | none => rfl
  | some t =>
      have hpos := byteSize_pos hfront
      have hstart := (hrun.token t rfl).1
      have hlt : t.start < place := by
        simp only [Cursor.past] at hplace
        omega
      simp only [Option.toList_some, List.map_singleton, moveDown, movedFrom_of_lt hlt]

theorem lexAt_blankLines
    (hline : atLineStart (cursor.past front).before = true)
    (hplace : place = (cursor.past front).offset)
    (hapart : ∀ t ∈ lexAt cursor (front ++ behind), t.start < place → t.stop < place) :
    lexAt cursor (front ++ (blankLines k ++ behind)) =
      (lexAt cursor (front ++ behind)).map (moveDown place k) := by
  -- Each round in front of the place leaves a shorter front, up to the round that stands there.
  induction hlength : front.length using Nat.strong_induction_on generalizing cursor front with
  | _ length ih =>
      subst hlength
      rcases nil_or_endsLine hline with ⟨rfl, hstart⟩ | hends
      · obtain ⟨next, hnext, hfollows⟩ := exists_lexAt_blankLines k hstart behind
        rw [List.nil_append, List.nil_append, hnext, lexAt_of_follows hfollows, map_moveBy]
        exact hplace.le
      · have hoverlap : ¬ Overruns cursor front behind := by
          rintro ⟨t, ht, hstart, hstop, -⟩
          have hpos := byteSize_pos hends.ne_nil
          have hlt := hapart t ht
          simp only [Cursor.past] at hplace
          omega
        cases exists_round cursor hends with
        | halt h =>
            rw [lexAt_of_halts (h behind), lexAt_of_halts (h (blankLines k ++ behind))]
            rfl
        | block h =>
            exact lexAt_block_blankLines k hends hplace.le h
        | overrun h => exact absurd (h behind) hoverlap
        | @step ahead found next rest hahead hstep hoverrun =>
            have hnone : ahead behind = none := by
              by_contra hsome
              exact hoverlap (hoverrun behind hsome)
            -- A look ahead that finds no end finds none behind blank lines either.
            have hleft := hstep behind hnone
            have hright := hstep (blankLines k ++ behind) (hahead.blankLines hnone k)
            obtain ⟨run, hrun⟩ := hleft.passes_front
            rw [lexAt_of_step hleft] at hapart ⊢
            rw [lexAt_of_step hright, List.map_append]
            have hfound : found.toList.map (moveDown place k) = found.toList :=
              map_moveDown_found k hrun hends.ne_nil hplace.ge
            have hrest : lexAt next (rest ++ (blankLines k ++ behind)) =
                (lexAt next (rest ++ behind)).map (moveDown place k) := by
              apply ih rest.length hrun.length_lt _ _ _ rfl
              · rw [hrun.past_before]
                exact hline
              · rw [hrun.past_offset]
                exact hplace
              · intro t ht
                exact hapart t (List.mem_append_right _ ht)
            rw [hfound, hrest]

end

end Token

/-! ## Lines behind blank lines -/

theorem charsBefore_sublist (n : Nat) (cs : List Char) : (charsBefore n cs).Sublist cs := by
  induction cs generalizing n with
  | nil => cases n <;> exact List.Sublist.refl []
  | cons c cs ih =>
      cases n with
      | zero => exact List.nil_sublist _
      | succ n => exact (ih _).cons_cons c

/-- An offset within whole lines is on a line before the one behind them. -/
theorem count_charsBefore_lt
    {front : List Char} (hfront : AtLineStart front) {n : Nat} (hn : n < byteSize front) :
    (charsBefore n front).count '\n' < front.count '\n' := by
  rcases hfront with rfl | hlast
  · cases hn
  · obtain ⟨lines, rfl⟩ := List.getLast?_eq_some_iff.mp hlast
    have hbreak : byteSize ['\n'] = 1 := rfl
    rw [Token.byteSize_append, hbreak] at hn
    have hle := (charsBefore_sublist n lines).count_le '\n'
    rw [charsBefore_append, Nat.sub_eq_zero_of_le (by omega), charsBefore, List.append_nil,
      List.count_append, List.count_singleton_self]
    omega

theorem charsBefore_behind
    {front behind : List Char} {n : Nat} (hn : byteSize front ≤ n) (k : Nat) :
    charsBefore (n + k) (front ++ (blankLines k ++ behind)) =
      front ++ (blankLines k ++ charsBefore (n - byteSize front) behind) := by
  have hlines : byteSize (blankLines k) ≤ n + k - byteSize front := by
    rw [byteSize_blankLines]
    omega
  have hrest : n + k - byteSize front - byteSize (blankLines k) = n - byteSize front := by
    rw [byteSize_blankLines]
    omega
  rw [charsBefore_append, charsBefore_append, charsBefore_of_le (by omega),
    charsBefore_of_le hlines, hrest]

section

variable {source spaced : String} {front behind : List Char}

theorem lineAt_spaced
    (k : Nat) (hfront : AtLineStart front) (hsource : source.toList = front ++ behind)
    (hspaced : spaced.toList = front ++ (blankLines k ++ behind)) (n : Nat) :
    lineAt spaced (movedFrom (byteSize front) k n) =
      movedFrom (1 + front.count '\n') k (lineAt source n) := by
  rcases Nat.lt_or_ge n (byteSize front) with hn | hn
  · have hlt := count_charsBefore_lt hfront hn
    rw [movedFrom_of_lt hn, lineAt_eq, lineAt_eq, hspaced, hsource,
      charsBefore_within (List.prefix_append _ _) hn.le,
      charsBefore_within (List.prefix_append _ _) hn.le, movedFrom_of_lt (by omega)]
  · have hcount : (blankLines k).count '\n' = k := List.count_replicate_self
    rw [movedFrom_of_le hn, lineAt_eq, lineAt_eq, hspaced, hsource, charsBefore_behind hn,
      charsBefore_append, charsBefore_of_le hn, List.count_append, List.count_append,
      List.count_append, hcount, movedFrom_of_le (by omega)]
    omega

theorem opensLine_spaced
    (k : Nat) (hfront : AtLineStart front) (hsource : source.toList = front ++ behind)
    (hspaced : spaced.toList = front ++ (blankLines k ++ behind)) (n : Nat) :
    opensLine spaced (movedFrom (byteSize front) k n) = opensLine source n := by
  rcases Nat.lt_or_ge n (byteSize front) with hn | hn
  · rw [movedFrom_of_lt hn, opensLine, opensLine, hspaced, hsource,
      charsBefore_within (List.prefix_append _ _) hn.le,
      charsBefore_within (List.prefix_append _ _) hn.le]
  · have hlines : AtLineStart (blankLines k) := by
      cases k with
      | zero => exact .inl rfl
      | succ k => exact .inr (by simp [blankLines, List.getLast?_replicate])
    rw [movedFrom_of_le hn, opensLine, opensLine, hspaced, hsource, charsBefore_behind hn,
      charsBefore_append, charsBefore_of_le hn, takeWhile_reverse_append hfront,
      takeWhile_reverse_append hfront, takeWhile_reverse_append hlines]

/-- Blank lines behind a front that ends a line. -/
def spacing
    (k : Nat) (hfront : AtLineStart front) (hsource : source.toList = front ++ behind)
    (hspaced : spaced.toList = front ++ (blankLines k ++ behind)) : Translation source spaced where
  text := id
  line := movedFrom (1 + front.count '\n') k
  place := fun n n' => n' = movedFrom (byteSize front) k n
  stop := fun n n' => n' = movedFrom (byteSize front) k n
  keepsLines := keepsLines_id
  lt_iff := by
    rintro m m' n n' rfl rfl
    exact (movedFrom_lt_iff _ k m n).symm
  lineAt_eq := by
    rintro n n' rfl
    exact lineAt_spaced k hfront hsource hspaced n
  opensLine_eq := by
    rintro n n' rfl
    exact opensLine_spaced k hfront hsource hspaced n
  stop_max := by
    rintro m m' n n' rfl rfl
    unfold movedFrom
    split_ifs <;> omega

theorem translates_moveDown
    {k : Nat} (hfront : AtLineStart front) (hsource : source.toList = front ++ behind)
    (hspaced : spaced.toList = front ++ (blankLines k ++ behind)) {t : Token}
    (hapart : t.start < byteSize front → t.stop < byteSize front) :
    Token.Translates (spacing k hfront hsource hspaced) t (t.moveDown (byteSize front) k) := by
  have hstop : (t.moveDown (byteSize front) k).stop = movedFrom (byteSize front) k t.stop := by
    unfold Token.stop Token.moveDown at *
    rcases Nat.lt_or_ge t.start (byteSize front) with hlt | hge
    · rw [movedFrom_of_lt (hapart hlt), movedFrom_of_lt hlt]
    · rw [movedFrom_of_le hge, movedFrom_of_le (by omega)]
      exact Nat.add_right_comm _ _ _
  exact ⟨rfl, rfl, hstop, fun _ => ⟨rfl, hstop⟩, fun _ => rfl, fun _ => rfl⟩

end

/-! ## Documentation with blank lines -/

/-- The element in its place after blank lines that are put in at a place and a line. -/
def Element.moveDown (place line k : Nat) (e : Element) : Element :=
  { e with
    span := ⟨movedFrom place k e.span.start, movedFrom place k e.span.stop⟩
    line := movedFrom line k e.line }

/-- The module with its lines changed. -/
def Module.mapLines (line : Nat → Nat) (m : Module) : Module :=
  m.restate id line

/-- Blank lines put in where a line begins, outside of tokens, move down what stands behind them and
change nothing else. -/
theorem extract_blankLines
    (front behind : String) (k : Nat) (hfront : AtLineStart front.toList)
    (hapart : ∀ t ∈ Token.lex (front ++ behind),
      t.start < front.utf8ByteSize → t.stop < front.utf8ByteSize) :
    let spaced := front ++ String.ofList (blankLines k) ++ behind
    let line := lineAt (front ++ behind) front.utf8ByteSize
    Element.scan spaced =
        (Element.scan (front ++ behind)).map (Element.moveDown front.utf8ByteSize line k) ∧
      ∀ (settings : ExtractSettings) (path : Path),
        Module.extract settings path spaced =
          ((Module.extract settings path (front ++ behind)).map
            (Extraction.map (Module.mapLines (movedFrom line k)))).mapError
              (ExtractError.mapLine (movedFrom line k)) := by
  intro spaced line
  have hsource : (front ++ behind).toList = front.toList ++ behind.toList := by simp
  have hspaced : spaced.toList = front.toList ++ (blankLines k ++ behind.toList) := by
    simp [spaced]
  have hsize := Token.byteSize_toList front
  have hline : line = 1 + front.toList.count '\n' := by
    rw [← lineAt_byteSize hsource, hsize]
  rw [← hsize] at hapart ⊢
  have hplace : byteSize front.toList = (Token.Cursor.start.past front.toList).offset :=
    (Nat.zero_add _).symm
  have hlex : Token.lex spaced =
      (Token.lex (front ++ behind)).map (Token.moveDown (byteSize front.toList) k) := by
    simp only [Token.lex_eq_lexAt, hsource, hspaced] at hapart ⊢
    exact Token.lexAt_blankLines k (Token.atLineStart_past_start hfront) hplace hapart
  have htokens : List.Forall₂ (Token.Translates (spacing k hfront hsource hspaced))
      (Token.lex (front ++ behind)) (Token.lex spaced) := by
    rw [hlex, List.forall₂_map_right_iff, List.forall₂_same]
    intro t ht
    exact translates_moveDown hfront hsource hspaced (hapart t ht)
  have helements := Scan.forall₂_elements htokens
  have hlines : (spacing k hfront hsource hspaced).line = movedFrom line k := by
    rw [hline]
    rfl
  constructor
  · rw [← List.forall₂_eq_eq_eq, List.forall₂_map_right_iff]
    refine helements.flip.imp ?_
    intro e' e he
    have heq := Element.Restates.eq_of_span he.toRestates he.start he.stop
    rwa [hlines] at heq
  · intro settings path
    have hrestates : List.Forall₂ (Element.Restates id (movedFrom line k))
        (Element.scan (front ++ behind)) (Element.scan spaced) := by
      rw [← hlines]
      exact helements.imp fun _ _ he => he.toRestates
    exact Module.ofElements_restate settings.extensions path hrestates

theorem extract_blankLines_before_routine :
    let front := "package A;\nq(;\n### Doc.\n"
    let behind := "sub f \x7b 1 \x7d\n"
    (∀ t ∈ Token.lex (front ++ behind), t.start < 24 → t.stop < 24) ∧
      Element.scan (front ++ String.ofList (blankLines 2) ++ behind) =
        (Element.scan (front ++ behind)).map (Element.moveDown 24 4 2) ∧
      ∀ (settings : ExtractSettings) (path : Path),
        Module.extract settings path (front ++ String.ofList (blankLines 2) ++ behind) =
          ((Module.extract settings path (front ++ behind)).map
            (Extraction.map (Module.mapLines (movedFrom 4 2)))).mapError
              (ExtractError.mapLine (movedFrom 4 2)) := by
  intro front behind
  have hapart : ∀ t ∈ Token.lex (front ++ behind), t.start < 24 → t.stop < 24 := by decide +kernel
  have hline : lineAt (front ++ behind) front.utf8ByteSize = 4 := by decide +kernel
  have hlast : front.toList.getLast? = some '\n' := by decide
  have hspaced := extract_blankLines front behind 2 (.inr hlast) hapart
  rw [hline] at hspaced
  exact ⟨hapart, hspaced⟩

end MarkerDoc
