import MarkerDoc.Shell.Bytes

/-!
# Alignment of lines

Which lines of two texts are changed and which stay.  Lines are given by numbers that are equal for
equal lines.  A line that the other text does not have is changed in any case.  The others are
aligned by searching from both ends of the texts at once: a step of the search goes one changed line
further on every diagonal, that is, for every difference of places in the two texts, and then along
the lines that stay.  Where the two searches meet, the texts are divided.  At last every run of
changed lines is moved back and forth as far as that does not make a difference, so that runs come
together.
-/

namespace MarkerDoc.Shell.Utility

/-- The lines of two texts. -/
structure Alignment where
  old : Array Nat
  new : Array Nat

namespace Alignment

/-- A part of both texts. -/
structure Part where
  oldStart : Int
  oldEnd : Int
  newStart : Int
  newEnd : Int

/-- How far a search has come on some diagonals. -/
structure Front where
  reach : Array Int
  low : Int
  high : Int

/-- Whether the lines at two places are equal. -/
def same (a : Alignment) (i j : Int) : Bool :=
  a.old.getD i.toNat 0 == a.new.getD j.toNat 0

/-- The place of a diagonal in a front. -/
def slot (a : Alignment) (d : Int) : Nat := (d + a.new.size + 1).toNat

def reachAt (a : Alignment) (f : Front) (d : Int) : Int :=
  f.reach.getD (a.slot d) 0

def setReach (a : Alignment) (f : Front) (d x : Int) : Front :=
  { f with reach := f.reach.setIfInBounds (a.slot d) x }

/-- The number of equal lines behind two places. -/
def equalBehind (a : Alignment) (p : Part) : Nat → Int → Int → Nat
  | 0, _, _ => 0
  | fuel + 1, i, j =>
    if i < p.oldEnd && j < p.newEnd && a.same i j then a.equalBehind p fuel (i + 1) (j + 1) + 1
    else 0

/-- The number of equal lines before two places. -/
def equalBefore (a : Alignment) (p : Part) : Nat → Int → Int → Nat
  | 0, _, _ => 0
  | fuel + 1, i, j =>
    if p.oldStart < i && p.newStart < j && a.same (i - 1) (j - 1) then
      a.equalBefore p fuel (i - 1) (j - 1) + 1
    else 0

/-- Lets a front reach one diagonal further on both sides, as far as the part has diagonals. -/
def widen (a : Alignment) (p : Part) (edge : Int) (f : Front) : Front :=
  let f := if p.oldStart - p.newEnd < f.low then
      a.setReach { f with low := f.low - 1 } (f.low - 2) edge
    else { f with low := f.low + 1 }
  if f.high < p.oldEnd - p.newStart then
    a.setReach { f with high := f.high + 1 } (f.high + 2) edge
  else { f with high := f.high - 1 }

/-- A step of the search from the start, on every second diagonal from `d` down; where it meets the
other front, if it does. -/
def stepDown (a : Alignment) (p : Part) (other : Front) (odd : Bool) :
    Nat → Int → Front → Except (Int × Int) Front
  | 0, _, f => .ok f
  | fuel + 1, d, f =>
    if d < f.low then .ok f
    else
      let lower := a.reachAt f (d - 1)
      let upper := a.reachAt f (d + 1)
      let start := if lower < upper then upper else lower + 1
      let x := start + a.equalBehind p (a.old.size + 1) start (start - d)
      let f := a.setReach f d x
      if odd && other.low ≤ d && d ≤ other.high && a.reachAt other d ≤ x then .error (x, x - d)
      else a.stepDown p other odd fuel (d - 2) f

/-- A step of the search from the end. -/
def stepUp (a : Alignment) (p : Part) (other : Front) (odd : Bool) :
    Nat → Int → Front → Except (Int × Int) Front
  | 0, _, f => .ok f
  | fuel + 1, d, f =>
    if d < f.low then .ok f
    else
      let lower := a.reachAt f (d - 1)
      let upper := a.reachAt f (d + 1)
      let start := if lower < upper then lower else upper - 1
      let x := start - a.equalBefore p (a.old.size + 1) start (start - d)
      let f := a.setReach f d x
      if !odd && other.low ≤ d && d ≤ other.high && x ≤ a.reachAt other d then .error (x, x - d)
      else a.stepUp p other odd fuel (d - 2) f

/-- Where the searches from both ends of a part meet. -/
def meeting (a : Alignment) (p : Part) : Nat → Front → Front → Int × Int
  | 0, _, _ => (p.oldStart, p.newStart)
  | fuel + 1, down, up =>
    let odd := ((p.oldStart - p.newStart) - (p.oldEnd - p.newEnd)) % 2 != 0
    let size := a.old.size + a.new.size + 2
    let down := a.widen p (-1) down
    match a.stepDown p up odd size down.high down with
    | .error place => place
    | .ok down =>
      let up := a.widen p (size + 1) up
      match a.stepUp p down odd size up.high up with
      | .error place => place
      | .ok up => a.meeting p fuel down up

/-- The whole numbers from one up to another. -/
def placesFrom (start stop : Int) : List Nat :=
  (List.range (stop - start).toNat).map (start.toNat + ·)

/-- The places of the changed lines in a part of both texts. -/
def changesIn (a : Alignment) : Nat → Part → List Nat × List Nat
  | 0, _ => ([], [])
  | fuel + 1, p =>
    let size := a.old.size + a.new.size + 2
    let front := a.equalBehind p size p.oldStart p.newStart
    let p := { p with oldStart := p.oldStart + front, newStart := p.newStart + front }
    let back := a.equalBefore p size p.oldEnd p.newEnd
    let p := { p with oldEnd := p.oldEnd - back, newEnd := p.newEnd - back }
    if p.oldStart = p.oldEnd then ([], placesFrom p.newStart p.newEnd)
    else if p.newStart = p.newEnd then (placesFrom p.oldStart p.oldEnd, [])
    else
      let first := p.oldStart - p.newStart
      let last := p.oldEnd - p.newEnd
      let blank : Array Int := Array.replicate (size + 1) 0
      let down := a.setReach { reach := blank, low := first, high := first } first p.oldStart
      let up := a.setReach { reach := blank, low := last, high := last } last p.oldEnd
      let (i, j) := a.meeting p size down up
      let (removed, added) := a.changesIn fuel { p with oldEnd := i, newEnd := j }
      let (removed', added') := a.changesIn fuel { p with oldStart := i, newStart := j }
      (removed ++ removed', added ++ added')

/-- Marks the lines that are changed, without moving runs. -/
def marks (a : Alignment) : Array Bool × Array Bool :=
  let olds := a.old.toList.zipIdx.filter fun (x, _) => a.new.contains x
  let news := a.new.toList.zipIdx.filter fun (y, _) => a.old.contains y
  let b : Alignment := ⟨(olds.map (·.1)).toArray, (news.map (·.1)).toArray⟩
  let (removed, added) := b.changesIn (b.old.size + b.new.size + 1)
    { oldStart := 0, oldEnd := b.old.size, newStart := 0, newEnd := b.new.size }
  let keepers (places : List (Nat × Nat)) (changed : List Nat) : List Nat :=
    (places.zipIdx.filter fun (_, i) => !changed.contains i).map (·.1.2)
  let kept := keepers olds removed
  let kept' := keepers news added
  ((Array.range a.old.size).map fun i => !kept.contains i,
    (Array.range a.new.size).map fun i => !kept'.contains i)

/-! ## Moving runs of changed lines -/

/-- Whether the line at a place is marked; there are no marks outside of the text. -/
def isMarked (marks : Array Bool) (i : Int) : Bool :=
  0 ≤ i && marks.getD i.toNat false

/-- The next place without a mark. -/
def freeBehind (marks : Array Bool) : Nat → Int → Int
  | 0, i => i
  | fuel + 1, i => if isMarked marks i then freeBehind marks fuel (i + 1) else i

/-- The place without a mark before a place. -/
def freeBefore (marks : Array Bool) : Nat → Int → Int
  | 0, i => i
  | fuel + 1, i => if isMarked marks i then freeBefore marks fuel (i - 1) else i

/-- A run of changed lines in one text, the place in the other text that corresponds to its end, and
the last end at which the other text has changed lines as well. -/
structure Moving where
  marks : Array Bool
  start : Int
  stop : Int
  across : Int
  anchor : Int

/-- Moves a run back by a line. -/
def Moving.back (m : Moving) (other : Array Bool) : Moving :=
  let marks := (m.marks.setIfInBounds (m.start - 1).toNat true).setIfInBounds
    (m.stop - 1).toNat false
  { m with
    marks, start := m.start - 1, stop := m.stop - 1
    across := freeBefore other (other.size + 1) (m.across - 1) }

/-- Moves a run back as long as the line before it is equal to its last one; the run takes in runs
that it comes to. -/
def Moving.farBack (lines : Array Nat) (other : Array Bool) : Nat → Moving → Moving
  | 0, m => m
  | fuel + 1, m =>
    if 0 < m.start && lines.getD (m.start - 1).toNat 0 == lines.getD (m.stop - 1).toNat 0 then
      let m := m.back other
      let start := freeBefore m.marks (m.marks.size + 1) (m.start - 1) + 1
      Moving.farBack lines other fuel { m with start }
    else m

/-- Moves a run forward as long as the line behind it is equal to its first one. -/
def Moving.farOn (lines : Array Nat) (other : Array Bool) : Nat → Moving → Moving
  | 0, m => m
  | fuel + 1, m =>
    if m.stop < lines.size && lines.getD m.start.toNat 0 == lines.getD m.stop.toNat 0 then
      let marks := (m.marks.setIfInBounds m.start.toNat false).setIfInBounds m.stop.toNat true
      let stop := freeBehind marks (marks.size + 1) (m.stop + 1)
      let across := freeBehind other (other.size + 1) (m.across + 1)
      Moving.farOn lines other fuel
        { marks, start := m.start + 1, stop, across
          anchor := if m.across + 1 < across then stop else m.anchor }
    else m

/-- Moves a run back and forth until it takes in nothing more. -/
def Moving.settle (lines : Array Nat) (other : Array Bool) : Nat → Moving → Moving
  | 0, m => m
  | fuel + 1, m =>
    let size := lines.size + 1
    let back := Moving.farBack lines other size m
    let anchor := if isMarked other (back.across - 1) then back.stop else lines.size
    let on := Moving.farOn lines other size { back with anchor }
    if on.stop - on.start = m.stop - m.start then on else Moving.settle lines other fuel on

/-- Moves a run back to its anchor. -/
def Moving.toAnchor (other : Array Bool) : Nat → Moving → Moving
  | 0, m => m
  | fuel + 1, m => if m.anchor < m.stop then Moving.toAnchor other fuel (m.back other) else m

/-- Moves all runs behind a place; `across` is the corresponding place in the other text. -/
def moveRuns (lines : Array Nat) (other : Array Bool) : Nat → Int → Int → Array Bool → Array Bool
  | 0, _, _, marks => marks
  | fuel + 1, i, across, marks =>
    if lines.size ≤ i then marks
    else if isMarked marks i then
      let size := lines.size + 1
      let m := Moving.settle lines other size
        { marks, start := i, stop := freeBehind marks size (i + 1)
          across := freeBehind other (other.size + 1) across, anchor := lines.size }
      let m := Moving.toAnchor other size m
      moveRuns lines other fuel m.stop m.across m.marks
    else moveRuns lines other fuel (i + 1) (freeBehind other (other.size + 1) across + 1) marks

/-- Marks the lines that are changed. -/
def changed (a : Alignment) : Array Bool × Array Bool :=
  let (removed, added) := a.marks
  let removed := moveRuns a.old added (2 * a.old.size + 1) 0 0 removed
  let added := moveRuns a.new removed (2 * a.new.size + 1) 0 0 added
  (removed, added)

end Alignment

end MarkerDoc.Shell.Utility
