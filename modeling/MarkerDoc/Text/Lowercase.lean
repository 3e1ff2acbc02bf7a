import MarkerDoc.Text.Casing

/-!
# Lower case

The lower-case form of a text follows Unicode's full mapping.  Two letters do not simply have a
small letter of their own: the dotted capital I becomes a small i with a combining dot, and the
capital sigma becomes the final sigma at the end of a word.
-/

namespace MarkerDoc.Text

def capitalSigma : Char := Char.ofNat 0x3A3

/-- The lower-case form of one character without regard to its neighbours. -/
def lowerChar (c : Char) : List Char :=
  let n := c.toNat
  if n < 0x80 then [c.toLower]
  else if n = 0x130 then ['i', Char.ofNat 0x307]
  else [Char.ofNat ((capitalRuns.findSome? (·.lower? n)).getD n)]

/-- Whether the first character that case rules do not look through belongs to a case. -/
def meetsCased (cs : List Char) : Bool :=
  ((cs.dropWhile isCaseIgnorable).head?.map isCased).getD false

/-- The small sigma between the text before it, nearest character first, and the text after it:
final when a cased letter stands before it and none after. -/
def lowerSigma (before after : List Char) : Char :=
  if meetsCased before && !meetsCased after then Char.ofNat 0x3C2 else Char.ofNat 0x3C3

/-- Lower case of the rest of a text, given what stands before it, nearest character first. -/
def lowerFrom (before : List Char) : List Char → List Char
  | [] => []
  | c :: cs =>
    (if c = capitalSigma then [lowerSigma before cs] else lowerChar c) ++ lowerFrom (c :: before) cs

def toLower (s : String) : String :=
  String.ofList (lowerFrom [] s.toList)

end MarkerDoc.Text
