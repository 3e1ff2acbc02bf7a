import MarkerDoc.Proofs.ByteOrder
import MarkerDoc.Token

/-!
# Finding lines in the table of their starts

The table holds an offset for every byte that is a line break, in increasing order.  No other
character has such a byte, so the starts up to an offset are one more than the line breaks that
start before it.
-/

namespace MarkerDoc

namespace LineIndex

/-- The starts of lines in bytes that stand at an offset. -/
def startsFrom (offset : Nat) (bytes : List UInt8) : List Nat :=
  ((bytes.zipIdx offset).filter (·.1 == newline)).map (·.2 + 1)

theorem starts_ofSource (source : String) :
    (ofSource source).starts =
      0 :: startsFrom 0 (source.toList.flatMap String.utf8EncodeChar) := by
  rw [← toList_data_toUTF8]
  rfl

theorem startsFrom_append (offset : Nat) (front rest : List UInt8) :
    startsFrom offset (front ++ rest) =
      startsFrom offset front ++ startsFrom (offset + front.length) rest := by
  rw [startsFrom, List.zipIdx_append, List.filter_append, List.map_append]
  rfl

theorem lt_of_mem_startsFrom {offset start : Nat} {bytes : List UInt8}
    (h : start ∈ startsFrom offset bytes) : offset < start := by
  obtain ⟨b, hb, rfl⟩ := List.mem_map.mp h
  exact Nat.lt_succ_of_le (List.le_snd_of_mem_zipIdx (List.mem_of_mem_filter hb))

theorem startsFrom_newline (offset : Nat) :
    startsFrom offset (String.utf8EncodeChar '\n') = [offset + 1] := by
  rw [utf8EncodeChar_of_ascii (by decide)]
  rfl

theorem startsFrom_of_ne {c : Char} (h : c ≠ '\n') (offset : Nat) :
    startsFrom offset (String.utf8EncodeChar c) = [] := by
  have hnone : newline ∉ String.utf8EncodeChar c := by
    rw [mem_utf8EncodeChar_iff (by decide)]
    exact fun heq => h (Char.toNat_inj.mp heq)
  rw [startsFrom, List.map_eq_nil_iff, List.filter_eq_nil_iff]
  intro b hb heq
  exact hnone (beq_iff_eq.mp heq ▸ List.fst_mem_of_mem_zipIdx hb)

/-- No start lies up to an offset in front of all of them. -/
theorem partitionPoint_startsFrom_of_le {offset limit : Nat} (h : limit ≤ offset)
    (bytes : List UInt8) : partitionPoint (· ≤ limit) (startsFrom offset bytes) = 0 := by
  rw [partitionPoint, List.length_eq_zero_iff, List.takeWhile_eq_nil_iff]
  intro hpos hfirst
  have hlt := lt_of_mem_startsFrom (List.get_mem (startsFrom offset bytes) ⟨0, hpos⟩)
  rw [decide_eq_true_eq] at hfirst
  omega

/-- The starts behind an offset and up to another are as many as the line breaks between them. -/
theorem partitionPoint_startsFrom (offset n : Nat) (cs : List Char) :
    partitionPoint (· ≤ offset + n) (startsFrom offset (cs.flatMap String.utf8EncodeChar)) =
      (charsBefore n cs).count '\n' := by
  induction cs generalizing offset n with
  | nil => cases n <;> rfl
  | cons c cs ih =>
      cases n with
      | zero => exact partitionPoint_startsFrom_of_le le_rfl _
      | succ n =>
          rw [List.flatMap_cons, startsFrom_append, String.length_utf8EncodeChar, charsBefore,
            List.count_cons]
          by_cases hc : c = '\n'
          · subst hc
            have hbehind := ih (offset + 1) n
            rw [Nat.add_right_comm] at hbehind
            rw [startsFrom_newline, List.singleton_append, partitionPoint,
              List.takeWhile_cons_of_pos (by simp), List.length_cons]
            exact congrArg (· + 1) hbehind
          · rw [startsFrom_of_ne hc, List.nil_append, if_neg (by simpa using hc), Nat.add_zero]
            rcases Nat.le_total c.utf8Size (n + 1) with hle | hle
            · have hsum : offset + (n + 1) = offset + c.utf8Size + (n + 1 - c.utf8Size) := by omega
              rw [hsum]
              exact ih _ _
            · rw [Nat.sub_eq_zero_of_le hle, partitionPoint_startsFrom_of_le (by omega),
                charsBefore]
              rfl

end LineIndex

/-- The line of an offset is one more than the number of line breaks that start before it. -/
theorem lineAt_eq (source : String) (offset : Nat) :
    lineAt source offset = 1 + (charsBefore offset source.toList).count '\n' := by
  have hcount := LineIndex.partitionPoint_startsFrom 0 offset source.toList
  rw [Nat.zero_add] at hcount
  rw [lineAt, LineIndex.line, LineIndex.starts_ofSource, LineIndex.partitionPoint,
    List.takeWhile_cons_of_pos (by simp), List.length_cons, Nat.add_comm]
  exact congrArg (1 + ·) hcount

end MarkerDoc
