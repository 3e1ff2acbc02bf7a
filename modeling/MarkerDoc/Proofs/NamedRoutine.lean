import MarkerDoc.Proofs.Prototype

/-!
# A named routine as one element

Whether a routine is taken whole is a question about the tokens of its signature.  For a prototype
it becomes a question about the characters between the parentheses: the header is followed through
the lexer from the keyword to the closing parenthesis, so the tokens of the signature are known, and
with them the text of the element.
-/

namespace MarkerDoc

/-! ## Prototypes close before the body -/

namespace Prototype

open Scan

theorem closesBeforeBody_append_iff
    {inner : List Token} (hpieces : ∀ t ∈ inner, IsPiece t) (parens : Nat) (after : List Token) :
    ClosesBeforeBody parens (inner ++ after) ↔
      (∀ t ∈ inner, t.kind ≠ .semicolon) ∧ ClosesBeforeBody parens after := by
  induction inner with
  | nil =>
      simp
  | cons t inner ih =>
      obtain ⟨ht, hrest⟩ := List.forall_mem_cons.mp hpieces
      rw [List.cons_append, closesBeforeBody_cons_iff, ht.parensAfter_eq, ih hrest,
        List.forall_mem_cons]
      simp [ht.isBrace_eq_false, and_assoc]

theorem Reads.closesBeforeBody_iff
    {cursor next : Token.Cursor} {p after : List Char} {inner : List Token} {close l : Token}
    (h : Reads cursor p after inner close next) (hl : isLeftParen l = true) :
    ClosesBeforeBody 0 (l :: (inner ++ [close])) ↔ SemicolonsFused p := by
  rw [closesBeforeBody_open_iff hl, closesBeforeBody_append_iff h.pieces, h.semicolons]
  exact and_iff_left (closesBeforeBody_close h.closes)

end Prototype

namespace Token

/-! ## Following the header through the lexer -/

/-- The places at which two splits of a text cut it are compared by size. -/
theorem append_inj_of_byteSize
    {front front' rest rest' : List Char} (h : front ++ rest = front' ++ rest')
    (hsize : byteSize front = byteSize front') : front = front' ∧ rest = rest' := by
  have hfront : front = front' := by
    rw [← charsBefore_byteSize front rest, h, hsize, charsBefore_byteSize]
  subst hfront
  exact ⟨rfl, List.append_cancel_left h⟩

/-- A token at the head of the tokens stands at the head of the text, unless the text begins with
a gap. -/
theorem exists_step_of_lexAt_cons
    {cursor : Cursor} {c : Char} {cs : List Char} {t : Token} {ts : List Token}
    (hgap : c ∉ gapCharacters) (hc : c ≠ '=') (h : lexAt cursor (c :: cs) = t :: ts) :
    ∃ next rest, Step cursor (c :: cs) (some t) next rest ∧ lexAt next rest = ts := by
  rcases step_or_halts cursor c cs with hhalts | ⟨found, next, rest, hstep⟩
  · rw [lexAt_of_halts hhalts] at h
    cases h
  · cases found with
    | some u =>
        rw [lexAt_of_step hstep] at h
        obtain ⟨rfl, hts⟩ := List.cons.inj h
        exact ⟨next, rest, hstep, hts⟩
    | none =>
        exfalso
        cases hstep with
        | pod hpod =>
            exact not_atPod hc hpod
        | gap hpod hscan =>
            apply hgap
            rw [mem_gapCharacters_iff]
            rcases Lexeme.scan_cases c cs with ⟨hc, -⟩ | ⟨hc, -⟩ | ⟨-, ⟨_, hkind⟩ | ⟨hkind, -⟩⟩
            · exact .inl hc
            · exact .inr hc
            · rcases hscan with hscan | hscan <;> simp [hscan] at hkind
            · rcases hscan with hscan | hscan <;> simp [hscan] at hkind

theorem Spells.mem_bounds
    {offset : Nat} {ts : List Token} {cs : List Char} (h : Spells offset ts cs) {t : Token}
    (ht : t ∈ ts) : t.start < offset + byteSize cs := by
  induction h with
  | nil =>
      cases ht
  | blank hc h ih =>
      rw [byteSize_cons, ← Nat.add_assoc]
      exact ih ht
  | @token u ts cs hne hblank hcomment h ih =>
      have hpos : 0 < byteSize u.text.toList := byteSize_pos (by simpa using hne)
      rw [byteSize_append]
      rcases List.mem_cons.mp ht with rfl | ht
      · omega
      · have hbound := ih ht
        rw [stop, ← byteSize_toList] at hbound
        omega

/-- Two ways to cut tokens where a place lies are the same. -/
theorem eq_of_append_eq_append
    (place : Nat) {ts ts' us us' : List Token} {u : Token} (h : ts ++ u :: us = ts' ++ us')
    (hts : ∀ t ∈ ts, t.start < place) (hu : place ≤ u.start) (hts' : ∀ t ∈ ts', t.start < place)
    (hus' : ∀ t ∈ us', place ≤ t.start) : ts = ts' := by
  have hcut := congrArg (List.takeWhile fun t => decide (t.start < place)) h
  rw [List.takeWhile_append_of_pos (by simpa using hts),
    List.takeWhile_append_of_pos (by simpa using hts'),
    List.takeWhile_cons_of_neg (by simpa using hu), List.append_nil] at hcut
  have hnil : us'.takeWhile (fun t => decide (t.start < place)) = [] := by
    cases us' with
    | nil =>
        rfl
    | cons v us' =>
        exact List.takeWhile_cons_of_neg (by simpa using hus' v List.mem_cons_self)
  rw [hcut, hnil, List.append_nil]

/-- A word behind a gap, where it is known to be the first token. -/
theorem lexAt_word_of_eq
    {cursor : Cursor} {gap cs : List Char} {t : Token} {ts : List Token}
    (hgap : ∀ c ∈ gap, c ∈ gapCharacters) (hword : IsWordText t)
    (h : lexAt cursor (gap ++ (t.text.toList ++ cs)) = t :: ts) :
    t.start = cursor.offset + byteSize gap ∧ ∃ next : Cursor, next.offset = t.stop ∧
      lexAt next cs = ts := by
  obtain ⟨here, hoffset, -, htokens⟩ := exists_lexAt_gap cursor hgap (t.text.toList ++ cs)
  obtain ⟨c, tail, htext, hc⟩ := hword.head
  have hblank : c ∉ gapCharacters := by
    intro hmem
    have hblank := isBlank_of_mem_gapCharacters hmem
    rw [hword.isBlank_eq_false (by rw [htext]; exact List.mem_cons_self)] at hblank
    cases hblank
  rw [htokens, htext, List.cons_append] at h
  obtain ⟨next, rest, hstep, hts⟩ :=
    exists_step_of_lexAt_cons hblank (Lexeme.ne_of_isWordStart hc (by decide)) h
  obtain ⟨run, hrun⟩ := hstep.exists_passes
  obtain ⟨hstart, hrunText⟩ := hrun.token t rfl
  have hlist : t.text.toList = run := by
    rw [hrunText, String.toList_ofList]
  have htexts : t.text.toList ++ cs = t.text.toList ++ rest := by
    rw [htext, List.cons_append, hrun.text, ← hlist, htext]
  obtain rfl := List.append_cancel_left htexts
  refine ⟨hstart.trans hoffset, next, ?_, hts⟩
  rw [hrun.offset, stop, hstart, ← byteSize_toList, hlist]

end Token

namespace Scan.RoutineTokens

open Token Prototype

/-- The header of the routine is written in the source with a prototype: the keyword, the name and
the parentheses with nothing but blanks between them.  The tokens of the signature stand inside the
header, and the body begins behind it. -/
structure HasPrototype (source : String) (r : RoutineTokens) (header p : List Char) : Prop where
  prototype : IsPrototype p
  written : ∃ gap gap', (∀ c ∈ gap, c ∈ gapCharacters) ∧ (∀ c ∈ gap', c ∈ gapCharacters) ∧
    header = "sub".toList ++ (gap ++ (r.name.text.toList ++ (gap' ++ '(' :: (p ++ [')']))))
  place : ∃ before after, source.toList = before ++ (header ++ after) ∧
    r.keyword.start = byteSize before ∧
    (∀ t ∈ r.signature, t.start < byteSize (before ++ header)) ∧
    byteSize (before ++ header) ≤ r.leftBrace.start

/-- The lexer from behind the name of a routine through its prototype. -/
theorem exists_reads_behind_name
    (cursor : Cursor) {gap p : List Char} (hgap : ∀ c ∈ gap, c ∈ gapCharacters)
    (hp : IsPrototype p) (after : List Char) :
    ∃ here l inner close next, isLeftParen l = true ∧ Reads here p after inner close next ∧
      lexAt cursor (gap ++ '(' :: (p ++ ')' :: after)) =
        l :: (inner ++ [close]) ++ lexAt next after ∧
      Spells cursor.offset (l :: (inner ++ [close])) (gap ++ '(' :: (p ++ [')'])) ∧
      next.offset = cursor.offset + byteSize (gap ++ '(' :: (p ++ [')'])) := by
  obtain ⟨start, hoffset, -, htokens⟩ := exists_lexAt_gap cursor hgap ('(' :: (p ++ ')' :: after))
  let l : Token := ⟨.punctuation, start.offset, "("⟩
  have hstep : Step start ('(' :: (p ++ ')' :: after)) (some l) (start.behind l ['('])
      (p ++ ')' :: after) :=
    .plain (n := 0) (not_atPod (by decide)) rfl rfl (by simp [Quoted.continuation?])
  have hblank : ∀ c ∈ l.text.toList, Text.isBlank c = false := by
    intro c hc
    obtain rfl : c = '(' := by simpa [l] using hc
    decide
  have hsize : byteSize (gap ++ '(' :: (p ++ [')'])) =
      byteSize gap + (byteSize ['('] + byteSize (p ++ [')'])) := by
    rw [← byteSize_append, ← byteSize_append]
    rfl
  obtain ⟨inner, close, next, hreads⟩ := exists_reads (start.behind l ['(']) hp after
  refine ⟨start.behind l ['('], l, inner, close, next, rfl, hreads, ?_, ?_, ?_⟩
  · rw [htokens, lexAt_of_step hstep, hreads.tokens]
    simp
  · apply Spells.gap hgap
    rw [← hoffset]
    have hspells := Spells.token (t := l) (by simp [l]) hblank rfl hreads.spells
    simpa [l] using hspells
  · rw [hreads.offset, Cursor.behind_offset, hoffset, hsize]
    omega

/-- The tokens of a header with a prototype spell it, and the prototype decides whether they close
before the body. -/
theorem HasPrototype.signature
    {source : String} {r : RoutineTokens} {header p : List Char} {front rest : List Token}
    (h : r.HasPrototype source header p) (hlex : lex source = front ++ (r.tokens ++ rest)) :
    (ClosesBeforeBody 0 r.signature ↔ SemicolonsFused p) ∧
      Spells r.keyword.start (r.keyword :: r.name :: r.signature) header := by
  obtain ⟨gap, gap', hgap, hgap', rfl⟩ := h.written
  obtain ⟨before, after, hsource, hstart, hinside, hbody⟩ := h.place
  have hmem : r.keyword ∈ lex source ∧ r.name ∈ lex source := by
    simp [hlex, tokens]
  have hkeyword : IsWordText r.keyword :=
    isWordText_of_mem_lex hmem.1 (by rw [r.keyword_kind]; rfl)
  have hname : IsWordText r.name :=
    isWordText_of_mem_lex hmem.2 (by rw [r.name_kind]; rfl)
  -- The text behind the keyword.
  have hlexAt : lexAt .start source.toList =
      front ++ r.keyword :: r.name :: (r.afterName ++ rest) := hlex
  obtain ⟨passed, here, next, behind, -, htext, hplace, hnext, htokens⟩ :=
    exists_step_of_lexAt hlexAt
  have hsub := hkeyword.sub r.keyword_kind
  obtain ⟨rfl, hbehind⟩ := append_inj_of_byteSize (htext.symm.trans hsource)
    (by rw [← hstart, hplace, Cursor.start, Nat.zero_add])
  rw [hsub, List.append_assoc] at hbehind
  have hwritten := List.append_cancel_left hbehind
  simp only [List.append_assoc, List.cons_append, List.nil_append] at hwritten
  rw [hwritten] at htokens
  -- The text behind the name.
  obtain ⟨hnameStart, named, hnamed, hsignature⟩ := lexAt_word_of_eq hgap hname htokens
  obtain ⟨_, l, inner, close, last, hl, hreads, hread, hspells, hlast⟩ :=
    exists_reads_behind_name named hgap' h.prototype after
  rw [hread] at hsignature
  have hend : last.offset = byteSize (passed ++ ("sub".toList ++ (gap ++ (r.name.text.toList ++
      (gap' ++ '(' :: (p ++ [')'])))))) := by
    have hkeywordStop : r.keyword.stop = byteSize passed + byteSize "sub".toList := by
      rw [stop, hstart, ← byteSize_toList, hsub]
    rw [hlast, hnamed, stop, hnameStart, hnext, hkeywordStop, ← byteSize_toList]
    simp only [byteSize_append]
    omega
  have hcut : r.signature ++ r.leftBrace :: (r.body ++ r.rightBrace :: rest) =
      l :: (inner ++ [close]) ++ lexAt last after := by
    rw [hsignature, afterName_append]
  have heq : r.signature = l :: (inner ++ [close]) := by
    apply eq_of_append_eq_append last.offset hcut
    · rwa [hend]
    · rwa [hend]
    · intro t ht
      rw [hlast]
      exact hspells.mem_bounds ht
    · intro t ht
      exact (start_lt_stop_of_mem_lexAt ht).1
  refine ⟨?_, ?_⟩
  · rw [heq]
    exact hreads.closesBeforeBody_iff hl
  · have hnameSpells : Spells r.name.start (r.name :: r.signature)
        (r.name.text.toList ++ (gap' ++ '(' :: (p ++ [')']))) := by
      apply Spells.token hname.text_ne_empty (fun d hd => hname.isBlank_eq_false hd)
        (by rw [r.name_kind]; rfl)
      rw [heq, ← hnamed]
      exact hspells
    rw [hnameStart] at hnameSpells
    rw [← hsub]
    apply Spells.token hkeyword.text_ne_empty (fun d hd => hkeyword.isBlank_eq_false hd)
      (by rw [r.keyword_kind]; rfl)
    rw [← hnext]
    exact .gap hgap hnameSpells

end Scan.RoutineTokens

namespace Scan

open Token Prototype

/-- A routine at the head of what the loop has left always gives a routine of its name.  It is taken
whole exactly when its signature closes before the body, as every balanced signature without a
semicolon does in which nothing but a parenthesis counts as one.  A prototype closes before the body
exactly when each of its semicolons is part of a variable.  The text of the element is the header
with its blanks collapsed, wherever nothing but blanks stands between the tokens, and the loop goes
on behind the body. -/
theorem routine_takenWhole_iff
    (source : String) (front rest : List Token) (r : RoutineTokens) (blocks : Nat)
    (given : List Element) (hlex : lex source = front ++ (r.tokens ++ rest))
    (before : Visits source (lex source) front.length blocks given) :
    (∃ e used, e.kind = .routine r.name.text ∧
      Visits source (lex source) (front.length + 1 + used) blocks (given ++ [e])) ∧
    (r.TakenWhole source rest ↔ ClosesBeforeBody 0 r.signature) ∧
    (IsSignature r.signature → OnlyParens r.signature → r.TakenWhole source rest) ∧
    (∀ header, Spells r.keyword.start (r.keyword :: r.name :: r.signature) header →
      (r.element source).text = Text.joinWith " " (Text.words (String.ofList header))) ∧
    (∀ header p, r.HasPrototype source header p →
      (r.TakenWhole source rest ↔ SemicolonsFused p) ∧
      (r.element source).text = Text.joinWith " " (Text.words (String.ofList header))) ∧
    (r.TakenWhole source rest →
      Visits source (lex source) (front.length + r.tokens.length) blocks
        (given ++ [r.element source]) ∧
      Element.scan source = given ++ r.element source :: elements source rest) := by
  have here : (lex source).drop front.length = r.tokens ++ rest := by
    rw [hlex, List.drop_left]
  have hne : ∀ t ∈ r.tokens, t.text ≠ "" := by
    intro t ht hempty
    have hmem : t ∈ lex source := by
      simp [hlex, ht]
    have hlt := start_lt_stop_of_mem_lex hmem
    simp [stop, hempty] at hlt
  have hwhole : r.TakenWhole source rest ↔ ClosesBeforeBody 0 r.signature :=
    ⟨fun h => r.closes_of_takenWhole h hne, r.takenWhole_of_closes source rest⟩
  refine ⟨?_, hwhole, ?_, fun header hspells => hspells.joined_eq, ?_, ?_⟩
  · exact ⟨_, _, rfl, before.next here (r.step_eq source _) (by simp [r.keyword_kind])
      (by simp [r.keyword_kind])⟩
  · intro hsignature honly
    exact hwhole.mpr (hsignature.closesBeforeBody honly)
  · intro header p hprototype
    obtain ⟨hcloses, hspells⟩ := hprototype.signature hlex
    exact ⟨hwhole.trans hcloses, hspells.joined_eq⟩
  · intro htaken
    have hvisits := r.visits_of_takenWhole htaken before here
    exact ⟨hvisits, hvisits.elements_behind here⟩

/-- A prototype in which a semicolon stands behind three dollar signs, with a blank inside. -/
theorem routine_takenWhole_fused :
    let source := "sub  f ($$$;\\@ _) \x7b $h\x7bx\x7d \x7d\nsub g \x7b\x7d\n"
    ∃ (r : RoutineTokens) (rest : List Token), lex source = r.tokens ++ rest ∧
      Visits source (lex source) 0 0 [] ∧
      r.HasPrototype source "sub  f ($$$;\\@ _)".toList "$$$;\\@ _".toList ∧
      (r.element source).text = "sub f ($$$;\\@ _)" ∧
      Element.scan source = r.element source :: elements source rest := by
  intro source
  let l : Token := ⟨.leftBrace, 22, "\x7b"⟩
  let closing : Token := ⟨.rightBrace, 24, "\x7d"⟩
  let r : RoutineTokens :=
    { keyword := ⟨.sub, 0, "sub"⟩
      name := ⟨.bareWord, 5, "f"⟩
      signature := [⟨.punctuation, 7, "("⟩, ⟨.variableName, 8, "$$"⟩, ⟨.variableName, 10, "$;"⟩,
        ⟨.punctuation, 12, "\\"⟩, ⟨.punctuation, 13, "@"⟩, ⟨.bareWord, 15, "_"⟩,
        ⟨.punctuation, 16, ")"⟩]
      leftBrace := ⟨.leftBrace, 18, "\x7b"⟩
      body := ⟨.variableName, 20, "$h"⟩ :: l :: ([⟨.bareWord, 23, "x"⟩] ++ closing :: [])
      rightBrace := ⟨.rightBrace, 26, "\x7d"⟩
      keyword_kind := rfl
      name_kind := rfl
      leftBrace_kind := rfl
      body_balanced := .plain rfl rfl (.group rfl rfl (.plain rfl rfl .nil) .nil)
      rightBrace_kind := rfl }
  have hlex : lex source = [] ++ (r.tokens ++
      [⟨.sub, 28, "sub"⟩, ⟨.bareWord, 32, "g"⟩, ⟨.leftBrace, 34, "\x7b"⟩,
        ⟨.rightBrace, 35, "\x7d"⟩]) := by
    decide +kernel
  have hprototype : r.HasPrototype source "sub  f ($$$;\\@ _)".toList "$$$;\\@ _".toList := by
    refine ⟨by decide, ⟨"  ".toList, " ".toList, ?_, ?_, by decide⟩, ?_⟩
    · simp [gapCharacters]
    · simp [gapCharacters]
    · exact ⟨[], " \x7b $h\x7bx\x7d \x7d\nsub g \x7b\x7d\n".toList, by decide, rfl, by decide,
        by decide⟩
  have hfused : SemicolonsFused "$$$;\\@ _".toList := by
    apply (semicolonsFused_dollar_iff '$' _).mpr
    apply (semicolonsFused_dollar_iff ';' _).mpr
    exact semicolonsFused_of_not_mem (by decide)
  obtain ⟨-, -, -, -, hheader, htaken⟩ := routine_takenWhole_iff source [] _ r 0 [] hlex .start
  obtain ⟨hwhole, htext⟩ := hheader _ _ hprototype
  refine ⟨r, _, hlex, .start, hprototype, ?_, (htaken (hwhole.mpr hfused)).2⟩
  rw [htext]
  decide +kernel

/-- A semicolon that is no part of a variable ends the header, and the body swallows the next
routine. -/
theorem routine_ends_at_semicolon :
    let source := "sub f (;$) \x7b 1 \x7d\nsub g \x7b\x7d\n"
    ∃ (r : RoutineTokens) (rest : List Token), lex source = r.tokens ++ rest ∧
      r.HasPrototype source "sub f (;$)".toList ";$".toList ∧ ¬ r.TakenWhole source rest ∧
      Element.scan source =
        [⟨.routine "f", "sub f (", ⟨0, 8⟩, 1⟩,
          ⟨.other, "$) \x7b 1 \x7d sub g \x7b\x7d", ⟨8, 25⟩, 1⟩] := by
  intro source
  let r : RoutineTokens :=
    { keyword := ⟨.sub, 0, "sub"⟩
      name := ⟨.bareWord, 4, "f"⟩
      signature := [⟨.punctuation, 6, "("⟩, ⟨.semicolon, 7, ";"⟩, ⟨.variableName, 8, "$)"⟩]
      leftBrace := ⟨.leftBrace, 11, "\x7b"⟩
      body := [⟨.number, 13, "1"⟩]
      rightBrace := ⟨.rightBrace, 15, "\x7d"⟩
      keyword_kind := rfl
      name_kind := rfl
      leftBrace_kind := rfl
      body_balanced := .plain rfl rfl .nil
      rightBrace_kind := rfl }
  refine ⟨r, [⟨.sub, 17, "sub"⟩, ⟨.bareWord, 21, "g"⟩, ⟨.leftBrace, 23, "\x7b"⟩,
    ⟨.rightBrace, 24, "\x7d"⟩], ?_,
    ⟨by decide, ⟨" ".toList, " ".toList, ?_, ?_, by decide⟩, ?_⟩, ?_, ?_⟩
  · decide +kernel
  · simp [gapCharacters]
  · simp [gapCharacters]
  · exact ⟨[], " \x7b 1 \x7d\nsub g \x7b\x7d\n".toList, by decide, rfl, by decide, by decide⟩
  · intro htaken
    have hcloses := r.closes_of_takenWhole htaken (by decide)
    exact hcloses.semicolon ⟨.semicolon, 7, ";"⟩ (by decide) rfl
  · decide +kernel

end Scan

end MarkerDoc
