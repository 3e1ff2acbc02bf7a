import MarkerDoc.Proofs.LookAhead.Quoted

/-!
# The lexer at the end of a line

A round of the lexer in front of some whole lines has few outcomes, whatever stands behind those
lines: it ends the tokens, it is inside a documentation block that runs on behind the lines, its
token runs on behind them, or it stays within them.  It stays within them for every text behind in
which the search for a closing delimiter finds nothing, and then it is the same round for all these
texts.
-/

namespace MarkerDoc

namespace Pod

theorem opens_append {front : List Char} (h : EndsLine front) (behind : List Char) :
    opens (front ++ behind) = opens front := by
  match front with
  | [] => cases h
  | [c] =>
      obtain rfl := Option.some.inj h
      rfl
  | c :: d :: front =>
      unfold opens
      split <;> split <;> simp_all

/-- A block is closed in the lines given, or goes on behind them with a new line. -/
theorem lengthFrom_append (line : List Char) {front : List Char} (h : EndsLine front) :
    (∃ n ≤ front.length, ∀ behind, lengthFrom line (front ++ behind) = n) ∨
      ∀ behind, lengthFrom line (front ++ behind) = front.length + lengthFrom [] behind := by
  induction front generalizing line with
  | nil => cases h
  | cons c front ih =>
      by_cases hc : c = '\n'
      · subst hc
        by_cases hcut : isCut ('\n' :: line).reverse = true
        · left
          refine ⟨1, by simp, ?_⟩
          intro behind
          rw [List.cons_append, lengthFrom, if_pos rfl, if_pos hcut]
        · have hnext : ∀ cs, lengthFrom line ('\n' :: cs) = lengthFrom [] cs + 1 := by
            intro cs
            rw [lengthFrom, if_pos rfl, if_neg hcut]
          rcases atLineStart_iff.mp h.tail with rfl | htail
          · right
            intro behind
            rw [List.cons_append, hnext, List.nil_append, Nat.add_comm]
            rfl
          · rcases ih [] htail with ⟨n, hn, hclosed⟩ | hopen
            · left
              refine ⟨n + 1, by simpa using hn, ?_⟩
              intro behind
              rw [List.cons_append, hnext, hclosed]
            · right
              intro behind
              rw [List.cons_append, hnext, hopen, List.length_cons]
              omega
      · have hnext : ∀ cs, lengthFrom line (c :: cs) = lengthFrom (c :: line) cs + 1 := by
          intro cs
          rw [lengthFrom, if_neg hc]
        rcases ih (c :: line) (h.tail_of_ne hc) with ⟨n, hn, hclosed⟩ | hopen
        · left
          refine ⟨n + 1, by simpa using hn, ?_⟩
          intro behind
          rw [List.cons_append, hnext, hclosed]
        · right
          intro behind
          rw [List.cons_append, hnext, hopen, List.length_cons]
          omega

end Pod

namespace Token

open Quoted

/-! ## Tokens that run on -/

/-- A token begins here and takes in the whole front, and something of the text behind unless that
is empty or begins with an escape. -/
def Overruns (cursor : Cursor) (front behind : List Char) : Prop :=
  ∃ t ∈ lexAt cursor (front ++ behind), t.start = cursor.offset ∧
    cursor.offset + byteSize front ≤ t.stop ∧
    ∀ c rest, behind = c :: rest → c ≠ '\\' → cursor.offset + byteSize front < t.stop

section

variable {cursor : Cursor} {front behind : List Char}

theorem overruns_of_stop
    {t : Token} {m : Nat} (ht : t ∈ lexAt cursor (front ++ behind))
    (hstart : t.start = cursor.offset)
    (hstop : cursor.offset + byteSize (front ++ behind.take m) ≤ t.stop)
    (hm : ∀ c rest, behind = c :: rest → c ≠ '\\' → 0 < m) : Overruns cursor front behind := by
  rw [byteSize_append] at hstop
  refine ⟨t, ht, hstart, by omega, ?_⟩
  rintro c rest rfl hc
  have hpos : 0 < byteSize ((c :: rest).take m) := by
    apply byteSize_pos
    have hm := hm c rest rfl hc
    simp
    omega
  omega

theorem byteSize_take_le (cs : List Char) (n m : Nat) :
    byteSize (cs.take n) ≤ byteSize (cs.take (n + m)) := by
  rw [List.take_add, byteSize_append]
  omega

theorem stop_ofList (kind : Kind) (start : Nat) (run : List Char) :
    stop ⟨kind, start, String.ofList run⟩ = start + byteSize run := by
  rw [stop, utf8ByteSize_ofList]

theorem mem_lexAt_of_step
    {cs rest : List Char} {t : Token} {next : Cursor} (h : Step cursor cs (some t) next rest) :
    t ∈ lexAt cursor cs := by
  rw [lexAt_of_step h]
  exact List.mem_cons_self

/-- A lexeme that is a token is the head of the token that is read. -/
theorem exists_token_of_scan
    {c : Char} {cs : List Char} {kind : Kind} {n : Nat} (hpod : ¬ cursor.AtPod (c :: cs))
    (hscan : Lexeme.scan c cs = (.token kind, n)) :
    ∃ t ∈ lexAt cursor (c :: cs), t.start = cursor.offset ∧
      cursor.offset + byteSize (c :: cs.take n) ≤ t.stop := by
  cases hkind : kind.isComment with
  | true =>
      exact ⟨_, mem_lexAt_of_step (.comment hpod hscan hkind), rfl, (stop_ofList _ _ _).ge⟩
  | false =>
      cases hquote : continuation? cursor.before cursor.previous
          ⟨kind, cursor.offset, String.ofList (c :: cs.take n)⟩ (cs.drop n) with
      | none =>
          have hstep := Step.plain hpod hscan hkind hquote
          exact ⟨_, mem_lexAt_of_step hstep, rfl, (stop_ofList _ _ _).ge⟩
      | some m =>
          have hle := byteSize_take_le cs n m
          refine ⟨_, mem_lexAt_of_step (.quoted hpod hscan hquote), rfl, ?_⟩
          rw [stop_ofList, byteSize_cons, byteSize_cons]
          omega

end

/-! ## One round -/

/-- What a round in front of some whole lines can be. -/
inductive Round (cursor : Cursor) (front : List Char) : Prop
  | halt (h : ∀ behind, Halts cursor (front ++ behind)) : Round cursor front
  | block (h : ∀ behind, lexAt cursor (front ++ behind) =
      lexAt (cursor.past (front ++ behind.take (Pod.length behind)))
        (behind.drop (Pod.length behind))) : Round cursor front
  | overrun (h : ∀ behind, Overruns cursor front behind) : Round cursor front
  | step {ahead : Reader} {found : Option Token} {next : Cursor} {rest : List Char}
      (hahead : LooksAhead ahead)
      (hstep : ∀ behind, ahead behind = none →
        Step cursor (front ++ behind) found next (rest ++ behind))
      (hoverrun : ∀ behind, ahead behind ≠ none → Overruns cursor front behind) :
      Round cursor front

/-- A round that is the same whatever stands behind. -/
theorem Round.always
    {cursor next : Cursor} {front rest : List Char} {found : Option Token}
    (h : ∀ behind, Step cursor (front ++ behind) found next (rest ++ behind)) :
    Round cursor front :=
  .step looksAhead_none (fun behind _ => h behind) fun _ hsome => absurd rfl hsome

section

variable {cursor : Cursor} {c : Char} {cs : List Char} {n : Nat}

theorem take_front {m : Nat} (hm : m ≤ cs.length) (behind : List Char) :
    (cs ++ behind).take m = cs.take m :=
  List.take_append_of_le_length hm

theorem drop_front {m : Nat} (hm : m ≤ cs.length) (behind : List Char) :
    (cs ++ behind).drop m = cs.drop m ++ behind :=
  List.drop_append_of_le_length hm

/-- A token whose construct may be closed far behind. -/
theorem round_token
    {kind : Kind} (hcs : EndsLine cs) (hn : n < cs.length)
    (hpod : ∀ behind, ¬ cursor.AtPod (c :: (cs ++ behind)))
    (hscan : ∀ behind, Lexeme.scan c (cs ++ behind) = (.token kind, n))
    (hkind : kind.isComment = false) : Round cursor (c :: cs) := by
  have hdrop : (cs.drop n).length = cs.length - n := List.length_drop
  have hquote : ∀ behind, continuation? cursor.before cursor.previous
      ⟨kind, cursor.offset, String.ofList (c :: (cs ++ behind).take n)⟩ ((cs ++ behind).drop n) =
      continuation? cursor.before cursor.previous
        ⟨kind, cursor.offset, String.ofList (c :: cs.take n)⟩ (cs.drop n ++ behind) := by
    intro behind
    rw [take_front hn.le, drop_front hn.le]
  cases divides_continuation? cursor.before cursor.previous
      ⟨kind, cursor.offset, String.ofList (c :: cs.take n)⟩ (hcs.drop hn) with
  | @within m hm hclosed =>
      apply Round.always
      intro behind
      have hcloses := (hquote behind).trans (hclosed behind)
      have hstep := Step.quoted (hpod behind) (hscan behind) hcloses
      have hle : n + m ≤ cs.length := by omega
      rwa [take_front hle, drop_front hle] at hstep
  | @beyond ahead hahead hopen =>
      -- If nothing behind closes the construct, it was none, and the token stands for itself.
      apply Round.step hahead
      · intro behind hnone
        have hfails := (hquote behind).trans (hopen behind)
        rw [hnone] at hfails
        have hstep := Step.plain (hpod behind) (hscan behind) hkind hfails
        rwa [take_front hn.le, drop_front hn.le] at hstep
      · intro behind hsome
        obtain ⟨m, hm⟩ := Option.ne_none_iff_exists'.mp hsome
        have hcloses := (hquote behind).trans (hopen behind)
        rw [hm, Option.map_some] at hcloses
        have hstep := Step.quoted (hpod behind) (hscan behind) hcloses
        have hlength : n + ((cs.drop n).length + m) = cs.length + m := by omega
        rw [hlength, List.take_length_add_append] at hstep
        apply overruns_of_stop (m := m) (mem_lexAt_of_step hstep) rfl (stop_ofList _ _ _).ge
        rintro d rest rfl hd
        exact hahead.pos hd hm

theorem round_scan
    {lexeme : Lexeme} (hcs : EndsLine cs) (hn : n < cs.length)
    (hpod : ∀ behind, ¬ cursor.AtPod (c :: (cs ++ behind)))
    (hscan : ∀ behind, Lexeme.scan c (cs ++ behind) = (lexeme, n)) : Round cursor (c :: cs) := by
  cases lexeme with
  | blank =>
      apply Round.always
      intro behind
      exact .gap (hpod behind) (.inl (hscan behind))
  | newline =>
      apply Round.always
      intro behind
      exact .gap (hpod behind) (.inr (hscan behind))
  | endMarker =>
      cases hstart : atLineStart cursor.before with
      | true =>
          apply Round.halt
          intro behind
          exact ⟨c, cs ++ behind, n, rfl, hpod behind, hscan behind, hstart⟩
      | false =>
          apply Round.always
          intro behind
          have hstep := Step.strayEnd (hpod behind) (hscan behind) hstart
          rwa [take_front hn.le, drop_front hn.le] at hstep
  | token kind =>
      cases hkind : kind.isComment with
      | true =>
          apply Round.always
          intro behind
          have hstep := Step.comment (hpod behind) (hscan behind) hkind
          rwa [take_front hn.le, drop_front hn.le] at hstep
      | false => exact round_token hcs hn hpod hscan hkind

theorem round_quote
    (hquote : Lexeme.IsQuote c) (hcs : EndsLine cs)
    (hpod : ∀ behind, ¬ cursor.AtPod (c :: (cs ++ behind))) : Round cursor (c :: cs) := by
  have hescape : c ≠ '\\' := by rcases hquote with rfl | rfl | rfl <;> decide
  have hline : c ≠ '\n' := by rcases hquote with rfl | rfl | rfl <;> decide
  rcases Lexeme.quotedTail_append hescape hline (.inr hcs) with ⟨n, hn, hclosed⟩ | hopen
  · have hscan : ∀ behind, Lexeme.scan c (cs ++ behind) = (.token .string, n) := by
      intro behind
      rw [Lexeme.scan_of_isQuote hquote, hclosed]
      rfl
    exact round_scan hcs hn hpod hscan
  · apply Round.overrun
    intro behind
    have hscan := Lexeme.scan_of_isQuote hquote (cs ++ behind)
    obtain ⟨t, ht, hstart, hstop⟩ := exists_token_of_scan (hpod behind) hscan
    rw [hopen, List.take_length_add_append, ← List.cons_append] at hstop
    refine overruns_of_stop ht hstart hstop ?_
    rintro d rest rfl hd
    by_cases hclose : d = c
    · subst hclose
      rw [Lexeme.quotedTail_close hescape]
      exact Nat.one_pos
    · rw [Lexeme.quotedTail_plain hd hclose]
      exact Nat.succ_pos _

theorem round_pod
    {front : List Char} (h : EndsLine front) (hpod : ∀ behind, cursor.AtPod (front ++ behind)) :
    Round cursor front := by
  obtain ⟨c, cs, rfl⟩ := List.exists_cons_of_ne_nil h.ne_nil
  rcases Pod.lengthFrom_append [] h with ⟨n, hn, hclosed⟩ | hopen
  · apply Round.always
    intro behind
    have hlength : Pod.length (c :: (cs ++ behind)) = n := hclosed behind
    have hpod' : cursor.AtPod (c :: (cs ++ behind)) := hpod behind
    have hstep := Step.pod hpod'
    have hle : n - 1 ≤ cs.length := by
      rw [List.length_cons] at hn
      omega
    rwa [hlength, ← List.cons_append, take_front hn, drop_front hle] at hstep
  · apply Round.block
    intro behind
    have hlength : Pod.length (c :: cs ++ behind) = (c :: cs).length + Pod.length behind :=
      hopen behind
    rw [lexAt_pod (hpod behind), hlength, List.take_length_add_append,
      List.drop_length_add_append]

/-- The outcomes listed are all there are. -/
theorem exists_round (cursor : Cursor) {front : List Char} (h : EndsLine front) :
    Round cursor front := by
  have hopens : ∀ behind, cursor.AtPod (front ++ behind) ↔ cursor.AtPod front := by
    intro behind
    rw [Cursor.AtPod, Cursor.AtPod, Pod.opens_append h]
  by_cases hpod : cursor.AtPod front
  · exact round_pod h fun behind => (hopens behind).mpr hpod
  · have hpod' : ∀ behind, ¬ cursor.AtPod (front ++ behind) :=
      fun behind => mt (hopens behind).mp hpod
    obtain ⟨c, cs, rfl⟩ := List.exists_cons_of_ne_nil h.ne_nil
    by_cases hline : c = '\n'
    · subst hline
      apply Round.always
      intro behind
      exact .gap (hpod' behind) (.inr rfl)
    · have hcs := h.tail_of_ne hline
      by_cases hquote : Lexeme.IsQuote c
      · exact round_quote hquote hcs hpod'
      · obtain ⟨lexeme, n, hn, hscan⟩ := Lexeme.exists_scan hquote hcs
        exact round_scan hcs hn hpod' hscan

end

/-! ## The end of a front -/

section

variable {cursor next : Cursor} {front rest run behind : List Char} {found : Option Token}

theorem Step.passes_front (h : Step cursor (front ++ behind) found next (rest ++ behind)) :
    ∃ run, Step.Passes cursor front found next rest run := by
  obtain ⟨run, hrun⟩ := h.exists_passes
  have htext := hrun.text
  rw [← List.append_assoc] at htext
  exact ⟨run, hrun.nonempty, List.append_cancel_right htext, hrun.offset, hrun.before, hrun.token⟩

/-- A round leaves the place behind the front where it was. -/
theorem Step.Passes.past_offset (h : Step.Passes cursor front found next rest run) :
    (next.past rest).offset = (cursor.past front).offset := by
  simp only [Cursor.past, h.offset, h.text, byteSize_append, Nat.add_assoc]

theorem Step.Passes.past_before (h : Step.Passes cursor front found next rest run) :
    (next.past rest).before = (cursor.past front).before := by
  have hbefore := h.before
  simp only [Cursor.past, lastOr] at hbefore ⊢
  rw [hbefore, h.text, List.getLast?_append, Option.or_assoc]

theorem Step.Passes.length_lt (h : Step.Passes cursor front found next rest run) :
    rest.length < front.length := by
  have hpos := List.length_pos_iff.mpr h.nonempty
  rw [h.text, List.length_append]
  omega

theorem nil_or_endsLine (h : atLineStart (cursor.past front).before = true) :
    front = [] ∧ atLineStart cursor.before = true ∨ EndsLine front := by
  cases hlast : front.getLast? with
  | none =>
      left
      simp only [Cursor.past, lastOr, hlast, Option.none_or] at h
      exact ⟨List.getLast?_eq_none_iff.mp hlast, h⟩
  | some c =>
      right
      simp only [Cursor.past, lastOr, hlast, Option.some_or] at h
      obtain rfl : c = '\n' := by simpa [atLineStart] using h
      exact hlast

theorem atLineStart_past_start (h : AtLineStart front) :
    atLineStart (Cursor.start.past front).before = true := by
  rcases h with rfl | hlast
  · rfl
  · simp [Cursor.past, lastOr, hlast, atLineStart]

end

end Token

end MarkerDoc
