import MarkerDoc.Proofs.LookAhead.Lexer
import MarkerDoc.Proofs.Translation

/-!
# Nothing is read behind an end marker

An end marker at the start of a line ends the tokens, but before the lexer gets there it may have
looked past the marker many times, for the end of a quoted text, of a documentation block or of a
quote-like construct.  If no token reaches past the marker, then each of these looks was in vain,
and two sources that differ only behind their markers have the same tokens, the same elements and
the same documentation.
-/

namespace MarkerDoc

namespace Token

/-! ## Two texts behind one front -/

/-- A text that ends the tokens wherever it begins a line. -/
def EndsTokens (cs : List Char) : Prop :=
  ∀ cursor : Cursor, atLineStart cursor.before = true → Halts cursor cs

section

variable {cursor : Cursor} {front behind behind' : List Char}

theorem not_overruns
    (hbehind : EndsTokens behind)
    (hfit : ∀ t ∈ lexAt cursor (front ++ behind), t.stop ≤ (cursor.past front).offset) :
    ¬ Overruns cursor front behind := by
  rintro ⟨t, ht, -, -, hstop⟩
  obtain ⟨c, rest, n, hcs, -, hscan, -⟩ := hbehind .start rfl
  have hc : c ≠ '\\' := by
    rintro rfl
    cases (show Lexeme.scan '\\' rest = (.token .punctuation, 0) from rfl).symm.trans hscan
  have hlt := hstop c rest hcs hc
  have hle := hfit t ht
  simp only [Cursor.past] at hle
  omega

theorem lexAt_eq_nil_of_past
    {passed rest : List Char} (hpassed : lexAt cursor (front ++ behind) =
      lexAt (cursor.past (front ++ passed)) rest)
    (hfit : ∀ t ∈ lexAt cursor (front ++ behind), t.stop ≤ (cursor.past front).offset) :
    lexAt cursor (front ++ behind) = [] := by
  apply List.eq_nil_iff_forall_not_mem.mpr
  intro t ht
  have hstop := hfit t ht
  rw [hpassed] at ht
  have hstart := start_lt_stop_of_mem_lexAt ht
  simp only [Cursor.past, byteSize_append] at hstart hstop
  omega

theorem lexAt_eq_of_endsTokens
    (hbehind : EndsTokens behind) (hbehind' : EndsTokens behind')
    (hline : atLineStart (cursor.past front).before = true)
    (hfit : ∀ t ∈ lexAt cursor (front ++ behind), t.stop ≤ (cursor.past front).offset)
    (hfit' : ∀ t ∈ lexAt cursor (front ++ behind'), t.stop ≤ (cursor.past front).offset) :
    lexAt cursor (front ++ behind) = lexAt cursor (front ++ behind') := by
  induction hlength : front.length using Nat.strong_induction_on generalizing cursor front with
  | _ length ih =>
      subst hlength
      rcases nil_or_endsLine hline with ⟨rfl, hstart⟩ | hends
      · rw [List.nil_append, List.nil_append, lexAt_of_halts (hbehind cursor hstart),
          lexAt_of_halts (hbehind' cursor hstart)]
      · cases exists_round cursor hends with
        | halt h =>
            rw [lexAt_of_halts (h behind), lexAt_of_halts (h behind')]
        | block h =>
            -- The block takes in the marker, so a token after it would be one past the front.
            rw [lexAt_eq_nil_of_past (h behind) hfit, lexAt_eq_nil_of_past (h behind') hfit']
        | overrun h =>
            exact absurd (h behind) (not_overruns hbehind hfit)
        | @step ahead found next rest hahead hstep hoverrun =>
            -- Had a look ahead come to an end, its token would reach past the front.
            have hnone : ahead behind = none := by
              by_contra hsome
              exact not_overruns hbehind hfit (hoverrun behind hsome)
            have hnone' : ahead behind' = none := by
              by_contra hsome
              exact not_overruns hbehind' hfit' (hoverrun behind' hsome)
            have hleft := hstep behind hnone
            have hright := hstep behind' hnone'
            obtain ⟨run, hrun⟩ := hleft.passes_front
            rw [lexAt_of_step hleft] at hfit ⊢
            rw [lexAt_of_step hright] at hfit' ⊢
            have hrest : lexAt next (rest ++ behind) = lexAt next (rest ++ behind') := by
              apply ih rest.length hrun.length_lt _ _ _ rfl
              · rw [hrun.past_before]
                exact hline
              · intro t ht
                rw [hrun.past_offset]
                exact hfit t (List.mem_append_right _ ht)
              · intro t ht
                rw [hrun.past_offset]
                exact hfit' t (List.mem_append_right _ ht)
            rw [hrest]

end

/-! ## End markers -/

theorem endsTokens_of_scan
    {n : Nat} (line rest : List Char) (hline : EndsLine line)
    (hscan : Lexeme.scan '_' line = (.endMarker, n)) :
    EndsTokens ('_' :: line ++ rest) := by
  intro cursor hstart
  have hquote : ¬ Lexeme.IsQuote '_' := by
    unfold Lexeme.IsQuote
    decide
  obtain ⟨lexeme, m, -, hsame⟩ := Lexeme.exists_scan hquote hline
  have hnone := hsame []
  rw [List.append_nil, hscan] at hnone
  exact ⟨'_', line ++ rest, n, rfl, not_atPod (by decide), (hsame rest).trans hnone.symm, hstart⟩

theorem endsTokens_marker
    {marker : String} (h : marker = "__END__" ∨ marker = "__DATA__") (rest : List Char) :
    EndsTokens (marker.toList ++ '\n' :: rest) := by
  rcases h with rfl | rfl
  · have hscan : Lexeme.scan '_' "_END__\n".toList = (.endMarker, 6) := by decide
    exact endsTokens_of_scan "_END__\n".toList rest rfl hscan
  · have hscan : Lexeme.scan '_' "_DATA__\n".toList = (.endMarker, 7) := by decide
    exact endsTokens_of_scan "_DATA__\n".toList rest rfl hscan

end Token

/-! ## Elements in front of the marker -/

/-- Two sources with a front in common, and its places. -/
def commonFront
    {source source' : String} (front : List Char) (h : front <+: source.toList)
    (h' : front <+: source'.toList) : Translation source source' where
  text := id
  line := id
  place := fun n n' => n' = n ∧ n ≤ byteSize front
  stop := fun n n' => n' = n
  keepsLines := keepsLines_id
  lt_iff := by
    rintro m m' n n' ⟨rfl, -⟩ ⟨rfl, -⟩
    exact Iff.rfl
  lineAt_eq := by
    rintro n n' ⟨rfl, hn⟩
    rw [MarkerDoc.lineAt_eq, MarkerDoc.lineAt_eq, charsBefore_within h hn, charsBefore_within h' hn]
    rfl
  opensLine_eq := by
    rintro n n' ⟨rfl, hn⟩
    rw [opensLine, opensLine, charsBefore_within h hn, charsBefore_within h' hn]
  stop_max := by
    rintro m m' n n' rfl rfl
    rfl

theorem Scan.elements_eq_of_front
    {source source' : String} {front : List Char} (h : front <+: source.toList)
    (h' : front <+: source'.toList) {ts : List Token} (hfit : ∀ t ∈ ts, t.stop ≤ byteSize front) :
    elements source ts = elements source' ts := by
  have htokens : List.Forall₂ (Token.Translates (commonFront front h h')) ts ts := by
    apply List.forall₂_same.mpr
    intro t ht
    have hstop := hfit t ht
    have hstart : t.start ≤ byteSize front := le_trans (Nat.le_add_right _ _) hstop
    exact ⟨rfl, ⟨rfl, hstart⟩, rfl, fun _ => ⟨rfl, rfl, hstop⟩, fun _ => rfl, fun _ => rfl⟩
  have helements := Scan.forall₂_elements htokens
  rw [← List.forall₂_eq_eq_eq]
  refine helements.imp ?_
  intro e e' he
  exact (he.eq_of_span he.start.1 he.stop).symm

/-- Two sources that differ only behind an end marker past which no token reaches have the same
tokens, elements and documentation. -/
theorem extract_eq_behind_endMarker
    (front marker marker' rest rest' : String) (hfront : AtLineStart front.toList)
    (hmarker : marker = "__END__" ∨ marker = "__DATA__")
    (hmarker' : marker' = "__END__" ∨ marker' = "__DATA__")
    (hfit : ∀ t ∈ Token.lex (front ++ marker ++ "\n" ++ rest), t.stop ≤ front.utf8ByteSize)
    (hfit' : ∀ t ∈ Token.lex (front ++ marker' ++ "\n" ++ rest'), t.stop ≤ front.utf8ByteSize) :
    Token.lex (front ++ marker ++ "\n" ++ rest) = Token.lex (front ++ marker' ++ "\n" ++ rest') ∧
      Element.scan (front ++ marker ++ "\n" ++ rest) =
        Element.scan (front ++ marker' ++ "\n" ++ rest') ∧
      ∀ (settings : ExtractSettings) (path : Path),
        Module.extract settings path (front ++ marker ++ "\n" ++ rest) =
          Module.extract settings path (front ++ marker' ++ "\n" ++ rest') := by
  have hsource : ∀ marker rest : String, (front ++ marker ++ "\n" ++ rest).toList =
      front.toList ++ (marker.toList ++ '\n' :: rest.toList) := by
    intro marker rest
    simp
  have hsize : (Token.Cursor.start.past front.toList).offset = front.utf8ByteSize := by
    rw [← Token.byteSize_toList]
    exact Nat.zero_add _
  have hlex : Token.lex (front ++ marker ++ "\n" ++ rest) =
      Token.lex (front ++ marker' ++ "\n" ++ rest') := by
    simp only [Token.lex_eq_lexAt, hsource, ← hsize] at hfit hfit' ⊢
    exact Token.lexAt_eq_of_endsTokens (Token.endsTokens_marker hmarker _)
      (Token.endsTokens_marker hmarker' _) (Token.atLineStart_past_start hfront) hfit hfit'
  have hscan : Element.scan (front ++ marker ++ "\n" ++ rest) =
      Element.scan (front ++ marker' ++ "\n" ++ rest') := by
    have hfronts : ∀ marker rest : String,
        front.toList <+: (front ++ marker ++ "\n" ++ rest).toList := by
      intro marker rest
      rw [hsource]
      exact List.prefix_append _ _
    rw [← Token.byteSize_toList] at hfit
    unfold Element.scan
    rw [← hlex]
    exact Scan.elements_eq_of_front (hfronts marker rest) (hfronts marker' rest') hfit
  refine ⟨hlex, hscan, ?_⟩
  intro settings path
  rw [Module.extract, Module.extract, hscan]

theorem extract_eq_behind_endMarker_unclosed :
    let source := "package A;\nq(\n" ++ "__END__" ++ "\n" ++ "one"
    let source' := "package A;\nq(\n" ++ "__DATA__" ++ "\n" ++ "two \""
    (∀ t ∈ Token.lex source, t.stop ≤ 14) ∧ (∀ t ∈ Token.lex source', t.stop ≤ 14) ∧
      Token.lex source = Token.lex source' ∧ Element.scan source = Element.scan source' ∧
      ∀ (settings : ExtractSettings) (path : Path),
        Module.extract settings path source = Module.extract settings path source' := by
  intro source source'
  have hfit : ∀ t ∈ Token.lex source, t.stop ≤ 14 := by decide +kernel
  have hfit' : ∀ t ∈ Token.lex source', t.stop ≤ 14 := by decide +kernel
  exact ⟨hfit, hfit', extract_eq_behind_endMarker "package A;\nq(\n" "__END__" "__DATA__" "one"
    "two \"" (.inr rfl) (.inl rfl) (.inr rfl) hfit hfit'⟩

end MarkerDoc
