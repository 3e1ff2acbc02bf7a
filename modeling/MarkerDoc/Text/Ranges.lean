/-!
# Sets of code points

Properties of characters that a standard lays down are tables of inclusive ranges, kept in
increasing order, so a search may stop at the first range that starts above the code point.
-/

namespace MarkerDoc.Text

/-- Whether `n` lies in one of the inclusive ranges, which stand in increasing order. -/
def inRanges : List (Nat × Nat) → Nat → Bool
  | [], _ => false
  | (low, high) :: rest, n => if n < low then false else if n ≤ high then true else inRanges rest n

end MarkerDoc.Text
