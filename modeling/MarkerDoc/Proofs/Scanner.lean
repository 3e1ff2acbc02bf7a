import MarkerDoc.Element.Scan
import MarkerDoc.Proofs.Lexer
import MarkerDoc.Proofs.LineTable

/-!
# The scanner one element at a time

The scanner takes elements off the front of the token list.  Its recursion is opened here once, in
`elements_cons`; the place of an element in the source follows from the characters in front of it.
-/

namespace MarkerDoc

open Token

/-! ## Lines -/

theorem charsBefore_append (n : Nat) (front rest : List Char) :
    charsBefore n (front ++ rest) =
      charsBefore n front ++ charsBefore (n - byteSize front) rest := by
  induction front generalizing n with
  | nil => cases n <;> simp [byteSize, charsBefore]
  | cons c front ih =>
      cases n with
      | zero => simp [charsBefore]
      | succ n =>
          rw [List.cons_append, charsBefore, charsBefore, ih, Nat.sub_sub, byteSize_cons,
            List.cons_append]

theorem charsBefore_of_le {n : Nat} {cs : List Char} (h : byteSize cs ≤ n) :
    charsBefore n cs = cs := by
  induction cs generalizing n with
  | nil => cases n <;> rfl
  | cons c cs ih =>
      have hpos := c.utf8Size_pos
      rw [byteSize_cons] at h
      obtain ⟨n, rfl⟩ : ∃ m, n = m + 1 := ⟨n - 1, by omega⟩
      rw [charsBefore, ih (by omega)]

theorem charsBefore_within
    {front cs : List Char} (h : front <+: cs) {n : Nat} (hn : n ≤ byteSize front) :
    charsBefore n cs = charsBefore n front := by
  obtain ⟨rest, rfl⟩ := h
  rw [charsBefore_append, Nat.sub_eq_zero_of_le hn, charsBefore, List.append_nil]

/-- The characters before the offset at which a front of the text ends are that front. -/
theorem charsBefore_byteSize (front rest : List Char) :
    charsBefore (byteSize front) (front ++ rest) = front := by
  rw [charsBefore_append, charsBefore_of_le le_rfl, Nat.sub_self, charsBefore, List.append_nil]

theorem lineAt_byteSize
    {source : String} {front rest : List Char} (h : source.toList = front ++ rest) :
    lineAt source (byteSize front) = 1 + front.count '\n' := by
  rw [lineAt_eq, h, charsBefore_byteSize]

/-- What stands on a line in front of a place does not reach back over a line break. -/
theorem takeWhile_reverse_append
    {front : List Char} (hfront : front = [] ∨ front.getLast? = some '\n') (cs : List Char) :
    (front ++ cs).reverse.takeWhile (· != '\n') = cs.reverse.takeWhile (· != '\n') := by
  have hstop : front.reverse.takeWhile (· != '\n') = [] := by
    rcases hfront with rfl | hlast
    · rfl
    · rw [← List.head?_reverse] at hlast
      obtain ⟨rest, hreverse⟩ := List.head?_eq_some_iff.mp hlast
      simp [hreverse]
  rw [List.reverse_append, List.takeWhile_append, hstop, List.append_nil]
  split
  · next hall => exact ((List.takeWhile_prefix _).eq_of_length hall).symm
  · rfl

theorem opensLine_byteSize
    {source : String} {front rest : List Char} (h : source.toList = front ++ rest)
    (hfront : front = [] ∨ front.getLast? = some '\n') :
    opensLine source (byteSize front) = true := by
  have hrun := takeWhile_reverse_append hfront []
  rw [List.append_nil] at hrun
  rw [opensLine, h, charsBefore_byteSize, hrun]
  rfl

/-! ## Elements -/

theorem Scan.elements_nil (source : String) : Scan.elements source [] = [] := by
  rw [Scan.elements]

theorem Scan.elements_cons (source : String) (t : Token) (ts : List Token) :
    Scan.elements source (t :: ts) =
      (Scan.step source t ts).1.toList ++
        Scan.elements source (ts.drop (Scan.step source t ts).2) := by
  rw [Scan.elements]

/-- Induction from element to element. -/
@[elab_as_elim]
theorem Scan.elements_induction
    (source : String) {motive : List Token → Prop} (nil : motive [])
    (cons : ∀ t ts, motive (ts.drop (Scan.step source t ts).2) → motive (t :: ts))
    (ts : List Token) : motive ts := by
  induction hlength : ts.length using Nat.strong_induction_on generalizing ts with
  | _ length ih =>
      cases ts with
      | nil => exact nil
      | cons t ts =>
          have hlt : (ts.drop (Scan.step source t ts).2).length < length := by
            rw [← hlength, List.length_drop, List.length_cons]
            omega
          exact cons t ts (ih _ hlt _ rfl)

/-- Every element is given by a step at one of the tokens. -/
theorem Scan.exists_step_of_mem_elements
    {source : String} {ts : List Token} {e : Element} (h : e ∈ Scan.elements source ts) :
    ∃ front t rest, ts = front ++ t :: rest ∧ (Scan.step source t rest).1 = some e := by
  induction ts using Scan.elements_induction source with
  | nil =>
      simp [Scan.elements_nil] at h
  | cons t ts ih =>
      rw [Scan.elements_cons, List.mem_append, Option.mem_toList] at h
      rcases h with h | h
      · exact ⟨[], t, ts, rfl, h⟩
      · obtain ⟨front, t', rest, hsplit, hstep⟩ := ih h
        refine ⟨t :: (ts.take (Scan.step source t ts).2 ++ front), t', rest, ?_, hstep⟩
        rw [List.cons_append, List.append_assoc, ← hsplit, List.take_append_drop]

/-- Everything but a package declaration and a comment. -/
def Element.Kind.isStatement : Element.Kind → Bool
  | .package _ | .comment _ => false
  | .routine _ | .attribute | .modifier | .include _ | .other => true

theorem Scan.isStatement_statementKind (first : Token) (rest : List Token) :
    (statementKind first rest).isStatement = true := by
  unfold statementKind
  split
  · split <;> [split; skip] <;> rfl
  · split_ifs <;> rfl
  · rfl

theorem Scan.marker?_eq_none_of_isStatement {e : Element} (h : e.kind.isStatement = true) :
    e.marker? = none := by
  unfold Element.marker?
  split
  · next hkind =>
      rw [hkind] at h
      cases h
  · rfl

theorem Scan.statementExtent_shown_le (blockEnds : Bool) (depth : Nat) (ts : List Token) :
    (statementExtent blockEnds depth ts).shown ≤ ts.length := by
  fun_induction statementExtent blockEnds depth ts <;> simp_all [Extent.succ]

end MarkerDoc
