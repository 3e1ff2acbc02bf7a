import MarkerDoc.Proofs.LineEnding.Lexer
import MarkerDoc.Proofs.Translation

/-!
# Carriage returns and elements

Corresponding tokens are grouped into corresponding elements.  Where an element ends depends on the
kinds of its tokens, on the last character of some and on the texts of words, and all of these are
the same with both line endings.  A statement that spans lines inside a quoted text shows the
carriage returns of its line breaks; a comment never shows the one that ends its line.
-/

namespace MarkerDoc

open Text

/-! ## Ends of texts -/

@[simp] theorem withReturns_append (s t : String) :
    withReturns (s ++ t) = withReturns s ++ withReturns t := by
  rw [withReturns, String.toList_append, crlf_append, String.ofList_append]
  rfl

theorem dropEndWhile_crlf (cs : List Char) :
    dropEndWhile isBlank (crlf cs) = crlf (dropEndWhile isBlank cs) := by
  have hreturn : isBlank '\r' = true := by decide
  have hfeed : isBlank '\n' = true := by decide
  induction cs using List.reverseRecOn with
  | nil => rfl
  | append_singleton cs c ih =>
      simp only [dropEndWhile_eq_rdropWhile] at ih ⊢
      by_cases hc : c = '\n'
      · subst hc
        have hsplit : crlf (cs ++ ['\n']) = crlf cs ++ ['\r'] ++ ['\n'] := by simp [crlf_append]
        rw [hsplit, List.rdropWhile_concat_pos _ _ _ hfeed,
          List.rdropWhile_concat_pos _ _ _ hreturn, List.rdropWhile_concat_pos _ _ _ hfeed, ih]
      · have hsplit : crlf (cs ++ [c]) = crlf cs ++ [c] := by simp [crlf_append, crlf_cons_of_ne hc]
        by_cases hblank : isBlank c = true
        · rw [hsplit, List.rdropWhile_concat_pos _ _ _ hblank,
            List.rdropWhile_concat_pos _ _ _ hblank, ih]
        · rw [hsplit, List.rdropWhile_concat_neg _ _ _ hblank,
            List.rdropWhile_concat_neg _ _ _ hblank, hsplit]

theorem trimEnd_withReturns (s : String) : trimEnd (withReturns s) = withReturns (trimEnd s) := by
  rw [trimEnd, toList_withReturns, dropEndWhile_crlf, withReturns, trimEnd, String.toList_ofList]

theorem stripEnd?_eq_some_iff (tail s front : String) :
    stripEnd? tail s = some front ↔ s.toList = front.toList ++ tail.toList := by
  unfold stripEnd?
  rw [Option.map_eq_some_iff]
  constructor
  · rintro ⟨rest, hrest, rfl⟩
    rw [afterLead?_eq_some_iff] at hrest
    simpa using congrArg List.reverse hrest
  · intro h
    refine ⟨front.toList.reverse, ?_, by simp⟩
    rw [afterLead?_eq_some_iff, h, List.reverse_append]

/-- A text within one line that ends a text with carriage returns ends the text without them. -/
theorem exists_append_of_crlf
    {cs front tail : List Char} (htail : '\n' ∉ tail) (h : crlf cs = front ++ tail) :
    ∃ front, cs = front ++ tail := by
  induction tail using List.reverseRecOn generalizing cs front with
  | nil => exact ⟨cs, by simp⟩
  | append_singleton tail c ih =>
      have hc : c ≠ '\n' := fun heq => htail (by simp [heq])
      have hlast : cs.getLast? = some c := by
        rw [← getLast?_crlf, h]
        simp
      obtain ⟨cs, rfl⟩ := List.getLast?_eq_some_iff.mp hlast
      rw [crlf_append, crlf_cons_of_ne hc, crlf_nil, ← List.append_assoc] at h
      obtain ⟨front, rfl⟩ := ih (fun hmem => htail (by simp [hmem])) (List.append_inj_left' h rfl)
      exact ⟨front, by simp⟩

theorem stripEnd?_withReturns {tail : String} (htail : '\n' ∉ tail.toList) (s : String) :
    stripEnd? tail (withReturns s) = (stripEnd? tail s).map withReturns := by
  have hsome : ∀ front, stripEnd? tail s = some front →
      stripEnd? tail (withReturns s) = some (withReturns front) := by
    intro front hfront
    rw [stripEnd?_eq_some_iff] at hfront ⊢
    rw [toList_withReturns, toList_withReturns, hfront, crlf_append, crlf_of_not_mem htail]
  cases hstrip : stripEnd? tail s with
  | some front => exact hsome front hstrip
  | none =>
      rw [Option.map_none, Option.eq_none_iff_forall_ne_some]
      intro front' hfront'
      rw [stripEnd?_eq_some_iff, toList_withReturns] at hfront'
      obtain ⟨front, hfront⟩ := exists_append_of_crlf htail hfront'
      have hfront : stripEnd? tail s = some (String.ofList front) := by
        rw [stripEnd?_eq_some_iff, String.toList_ofList, hfront]
      exact absurd (hstrip.symm.trans hfront) (by simp)

theorem keepsLines_withReturns : KeepsLines withReturns := by
  constructor
  · intro s hs
    rw [withReturns, crlf_of_not_mem hs, String.ofList_toList]
  · exact withReturns_append
  · intro s
    rw [toList_withReturns, getLast?_crlf]
  · exact trimEnd_withReturns
  · intro tail s htail
    exact stripEnd?_withReturns htail s

/-! ## Corresponding elements -/

/-- The same element of a source and of its form with carriage returns. -/
structure Element.Corresponds (e e' : Element) : Prop where
  kind : e'.kind = e.kind
  line : e'.line = e.line
  comment : e.marker? ≠ none → e'.text = e.text
  statement : e.marker? = none → e'.text = withReturns e.text

/-- Lines stay where they are; where a comment stops depends on the line ending. -/
def returnsTranslation (source : String) : Translation source (withReturns source) where
  text := withReturns
  line := id
  place := Aligned source
  stop := fun _ _ => True
  keepsLines := keepsLines_withReturns
  lt_iff := Aligned.lt_iff
  lineAt_eq := Aligned.lineAt_eq
  opensLine_eq := Aligned.opensLine_eq
  stop_max := fun _ _ => trivial

/-- A comment loses the carriage return that ends its line. -/
theorem Token.Corresponds.translates
    {source : String} {t t' : Token} (h : Token.Corresponds source t t') :
    Token.Translates (returnsTranslation source) t t' := by
  refine ⟨h.kind, h.start, trivial, h.plain, h.word, ?_⟩
  intro hcomment
  rcases h.comment hcomment with htext | htext
  · rw [htext]
  · rw [htext, dropEndWhile_eq_rdropWhile, dropEndWhile_eq_rdropWhile,
      List.rdropWhile_concat_pos _ _ _ (by decide)]

theorem Element.forall₂_scan (source : String) :
    List.Forall₂ Element.Corresponds (Element.scan source) (Element.scan (withReturns source)) := by
  have htokens := (Token.forall₂_lex source).imp fun _ _ h => h.translates
  exact (Scan.forall₂_elements htokens).imp fun _ _ h => ⟨h.kind, h.line, h.comment, h.statement⟩

end MarkerDoc
