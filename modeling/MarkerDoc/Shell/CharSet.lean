import MarkerDoc.Shell.Bytes

/-!
# Sets of characters

Bracketed sets, as they stand in wildcards and regular expressions: single characters, ranges and
named classes, all of which may be complemented.
-/

namespace MarkerDoc.Shell

/-- A bracketed set: whether it is complemented, and its ranges. -/
structure CharSet where
  complement : Bool
  ranges : List (Char × Char)
deriving DecidableEq

namespace CharSet

def contains (s : CharSet) (c : Char) : Bool :=
  (s.ranges.any fun (a, b) => a ≤ c && c ≤ b) != s.complement

/-- Every character. -/
def all : CharSet := ⟨true, []⟩

def single (c : Char) : CharSet := ⟨false, [(c, c)]⟩

/-- The ranges of a named class. -/
def named? (name : String) : Option (List (Char × Char)) :=
  match name with
  | "alpha" => some [('a', 'z'), ('A', 'Z')]
  | "digit" => some [('0', '9')]
  | "alnum" => some [('a', 'z'), ('A', 'Z'), ('0', '9')]
  | "upper" => some [('A', 'Z')]
  | "lower" => some [('a', 'z')]
  | "space" => some [('\t', '\r'), (' ', ' ')]
  | "blank" => some [('\t', '\t'), (' ', ' ')]
  | "punct" => some [('!', '/'), (':', '@'), ('[', backquote), (leftBrace, '~')]
  | "print" => some [(' ', '~')]
  | "graph" => some [('!', '~')]
  | "cntrl" => some [(Char.ofNat 0, Char.ofNat 31), (Char.ofNat 127, Char.ofNat 127)]
  | "xdigit" => some [('0', '9'), ('a', 'f'), ('A', 'F')]
  | _ => none

/-- The part of a range that lies between two letters, moved to the other case. -/
def otherCase? (range : Char × Char) (first last : Char) (shift : Int) : Option (Char × Char) :=
  let low := max range.1.toNat first.toNat
  let high := min range.2.toNat last.toNat
  let move (n : Nat) : Char := Char.ofNat ((n : Int) + shift).toNat
  if low ≤ high then some (move low, move high) else none

/-- Adds the other case of every letter. -/
def foldCase (s : CharSet) : CharSet :=
  { s with ranges := s.ranges ++ s.ranges.flatMap fun range =>
      (otherCase? range 'a' 'z' (-32)).toList ++ (otherCase? range 'A' 'Z' 32).toList }

/-- Reads the parts of a set up to its closing bracket, which does not close it in first place.
Where `escapes` holds, a backslash keeps the character after it. -/
def partsFrom (escapes : Bool) : Nat → Bool → List Char → Option (List (Char × Char) × List Char)
  | 0, _, _ => none
  | _, _, [] => none
  | fuel + 1, first, c :: cs =>
    if c = ']' && !first then some ([], cs)
    else
      let push (range : Char × Char) (rest : List Char) : Option (List (Char × Char) × List Char) :=
        (partsFrom escapes fuel false rest).map fun (rs, rest) => (range :: rs, rest)
      let fromStart (a : Char) (rest : List Char) : Option (List (Char × Char) × List Char) :=
        match rest with
        | '-' :: b :: after =>
          if b = ']' then push (a, a) rest
          else if b = '\\' && escapes then
            match after with
            | d :: after => push (a, d) after
            | [] => none
          else push (a, b) after
        | rest => push (a, a) rest
      match c, cs with
      | '[', ':' :: rest =>
        let name := rest.takeWhile Char.isAlpha
        match rest.drop name.length with
        | ':' :: ']' :: after =>
          (named? (String.ofList name)).bind fun ranges =>
            (partsFrom escapes fuel false after).map fun (rs, rest) => (ranges ++ rs, rest)
        | _ => fromStart '[' cs
      | '[', mark :: d :: mark' :: ']' :: rest =>
        if (mark = '.' || mark = '=') && mark' = mark then fromStart d rest
        else fromStart '[' cs
      | '\\', d :: rest => if escapes then fromStart d rest else fromStart '\\' cs
      | a, rest => fromStart a rest

/-- Reads a set after its opening bracket; `marks` are the characters that complement it. -/
def read? (marks : List Char) (escapes : Bool) (cs : List Char) : Option (CharSet × List Char) :=
  let (complement, rest) := match cs with
    | c :: rest => if marks.contains c then (true, rest) else (false, cs)
    | [] => (false, cs)
  (partsFrom escapes (rest.length + 1) true rest).map fun (ranges, rest) =>
    ({ complement, ranges }, rest)

end CharSet

end MarkerDoc.Shell
