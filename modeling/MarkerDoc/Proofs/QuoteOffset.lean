import MarkerDoc.Proofs.ByteOrder
import MarkerDoc.Proofs.Delimiter
import MarkerDoc.Proofs.Text

/-!
# Quote-like constructs by byte offsets

The lexer measures a quote-like construct in characters.  The same search can be made in offsets,
over the characters with the bytes at which they start: from the offset behind an operator to the
offset behind the modifiers, which are counted byte by byte.  The two searches agree.  An offset
that is found is the size of all characters before it, as the count of characters gives them.  So
what the units of a body say about its end holds of the offset too, and all of it is put together
in `delimited_ends_at_first_closing`.
-/

namespace MarkerDoc

/-! ## Offsets into a source -/

/-- The characters of a source from a byte offset on. -/
def charsFrom : Nat → List Char → List Char
  | 0, cs => cs
  | _ + 1, [] => []
  | n + 1, c :: cs => charsFrom (n + 1 - c.utf8Size) cs

theorem charsFrom_byteSize (front rest : List Char) :
    charsFrom (byteSize front) (front ++ rest) = rest := by
  induction front with
  | nil => rw [byteSize, List.foldr_nil, List.nil_append, charsFrom]
  | cons c front ih =>
      have hpos := Token.byteSize_pos (List.cons_ne_nil c front)
      obtain ⟨n, hn⟩ := Nat.exists_eq_succ_of_ne_zero hpos.ne'
      rw [hn, List.cons_append, charsFrom, ← Nat.succ_eq_add_one, ← hn, Token.byteSize_cons,
        Nat.add_sub_cancel_left, ih]

namespace Quoted

/-! ## The search by offsets -/

/-- Characters with the byte offsets at which they start. -/
def charIndices (offset : Nat) : List Char → List (Nat × Char)
  | [] => []
  | c :: cs => (offset, c) :: charIndices (offset + c.utf8Size) cs

/-- The offset behind the delimiter that closes a body, with `depth` brackets open so far. -/
def delimitedEndFrom (opener closer : Char) : Nat → List (Nat × Char) → Option Nat
  | _, [] => none
  | depth, [(i, c)] => if c ≠ '\\' ∧ c = closer ∧ depth = 0 then some (i + c.utf8Size) else none
  | depth, (i, c) :: next :: rest =>
    if c = '\\' then delimitedEndFrom opener closer depth rest
    else if c = closer then
      match depth with
      | 0 => some (i + c.utf8Size)
      | k + 1 => delimitedEndFrom opener closer k (next :: rest)
    else if c = opener then delimitedEndFrom opener closer (depth + 1) (next :: rest)
    else delimitedEndFrom opener closer depth (next :: rest)

/-- The offset behind the delimiter that closes the body at an offset. -/
def delimitedEnd (source : String) (start : Nat) (opener : Char) : Option Nat :=
  delimitedEndFrom opener ((closingBracket? opener).getD opener) 0
    (charIndices start (charsFrom start source.toList))

/-- The offset behind a further part of a construct.  After a bracketed part it has a delimiter of
its own. -/
def furtherEnd (source : String) (opener : Char) (pos : Nat) : Option Nat :=
  match closingBracket? opener with
  | none => delimitedEnd source pos opener
  | some _ =>
    let rest := charsFrom pos source.toList
    let trimmed := rest.dropWhile Text.isBlank
    match trimmed with
    | [] => none
    | second :: _ =>
      delimitedEnd source (pos + (byteSize rest - byteSize trimmed) + second.utf8Size) second

/-- The byte of a small letter. -/
def isLowerByte (b : UInt8) : Bool :=
  97 ≤ b && b ≤ 122

/-- The number of bytes from an offset on that are small letters. -/
def modifiers (source : String) (pos : Nat) : Nat :=
  ((source.toUTF8.data.toList.drop pos).takeWhile isLowerByte).length

/-- The offset behind the parts of a construct and its modifiers. -/
def partsEnd (source : String) (opener : Char) (parts start : Nat) : Option Nat := do
  let first ← delimitedEnd source start opener
  let pos ← (List.range (parts - 1)).foldlM (fun pos _ => furtherEnd source opener pos) first
  some (pos + modifiers source pos)

/-- The offset behind a construct of some parts whose operator ends at an offset. -/
def quotedEnd (source : String) (start parts : Nat) : Option Nat :=
  let rest := charsFrom start source.toList
  let trimmed := rest.dropWhile fun c => c == ' ' || c == '\t'
  let gap := byteSize rest - byteSize trimmed
  match trimmed with
  | [] => none
  | opener :: _ =>
    if opensBody gap opener then partsEnd source opener parts (start + gap + opener.utf8Size)
    else none

section

variable {opener closer : Char} {depth : Nat}

theorem delimitedEndFrom_escape (i : Nat) (next : Nat × Char) (rest : List (Nat × Char)) :
    delimitedEndFrom opener closer depth ((i, '\\') :: next :: rest) =
      delimitedEndFrom opener closer depth rest := by
  simp [delimitedEndFrom]

theorem delimitedEndFrom_cons {c : Char} (hescape : c ≠ '\\') (i : Nat) (rest : List (Nat × Char)) :
    delimitedEndFrom opener closer depth ((i, c) :: rest) =
      if c = closer then
        match depth with
        | 0 => some (i + c.utf8Size)
        | k + 1 => delimitedEndFrom opener closer k rest
      else if c = opener then delimitedEndFrom opener closer (depth + 1) rest
      else delimitedEndFrom opener closer depth rest := by
  cases rest with
  | nil => cases depth <;> simp [delimitedEndFrom, hescape]
  | cons next rest => cases depth <;> simp [delimitedEndFrom, hescape]

/-- The search by offsets ends behind as many characters as the search by characters. -/
theorem delimitedEndFrom_charIndices (start : Nat) (body : List Char) :
    delimitedEndFrom opener closer depth (charIndices start body) =
      (delimitedFrom opener closer depth body).map fun n => start + byteSize (body.take n) := by
  induction body using units_induction generalizing depth start with
  | nil => rfl
  | lone => simp [charIndices, delimitedEndFrom, delimitedFrom]
  | escape d rest ih =>
      rw [charIndices, charIndices, delimitedEndFrom_escape, delimitedFrom_escape, ih,
        Option.map_map]
      congr 1
      funext n
      simp only [Function.comp_apply, List.take_succ_cons, Token.byteSize_cons]
      omega
  | single c cs hc ih =>
      have hpassed : ∀ depth', delimitedEndFrom opener closer depth'
          (charIndices (start + c.utf8Size) cs) =
            ((delimitedFrom opener closer depth' cs).map (· + 1)).map fun n =>
              start + byteSize ((c :: cs).take n) := by
        intro depth'
        rw [ih, Option.map_map]
        congr 1
        funext n
        simp only [Function.comp_apply, List.take_succ_cons, Token.byteSize_cons]
        omega
      rw [charIndices, delimitedEndFrom_cons hc, delimitedFrom_cons hc]
      split_ifs
      · cases depth with
        | zero => simp [byteSize]
        | succ depth => exact hpassed depth
      · exact hpassed (depth + 1)
      · exact hpassed depth

end

/-! ## Modifiers -/

theorem byteSize_of_ascii {cs : List Char} (h : ∀ c ∈ cs, c.toNat < 128) :
    byteSize cs = cs.length := by
  induction cs with
  | nil => rfl
  | cons c cs ih =>
      have hsize : c.utf8Size = 1 := by
        rw [← String.length_utf8EncodeChar, utf8EncodeChar_of_ascii (h c List.mem_cons_self)]
        rfl
      rw [Token.byteSize_cons, hsize, ih fun d hd => h d (List.mem_cons_of_mem c hd),
        List.length_cons, Nat.add_comm]

/-- The blanks behind an operator are single bytes. -/
theorem byteSize_take_operatorGap (cs : List Char) :
    byteSize (cs.take (operatorGap cs)) = operatorGap cs := by
  rw [operatorGap, Text.take_length_takeWhile]
  apply byteSize_of_ascii
  intro c hc
  have hblank := List.mem_takeWhile_imp hc
  rw [Bool.or_eq_true, beq_iff_eq, beq_iff_eq] at hblank
  rcases hblank with rfl | rfl <;> decide

theorem isLowerByte_iff (b : UInt8) : isLowerByte b = true ↔ 97 ≤ b.toNat ∧ b.toNat ≤ 122 := by
  simp [isLowerByte, UInt8.le_iff_toNat_le]

theorem isLower_iff (c : Char) : c.isLower = true ↔ 97 ≤ c.toNat ∧ c.toNat ≤ 122 := by
  simp [Char.isLower, UInt32.le_iff_toNat_le]

/-- Small letters are single bytes, and no other character begins with such a byte. -/
theorem length_takeWhile_isLowerByte (cs : List Char) :
    ((cs.flatMap String.utf8EncodeChar).takeWhile isLowerByte).length =
      (cs.takeWhile Char.isLower).length := by
  induction cs with
  | nil => rfl
  | cons c cs ih =>
      rw [List.flatMap_cons]
      by_cases hascii : c.toNat < 128
      · have hbyte : isLowerByte (UInt8.ofNat c.toNat) = c.isLower := by
          rw [Bool.eq_iff_iff, isLowerByte_iff, isLower_iff, UInt8.toNat_ofNat',
            Nat.mod_eq_of_lt (by omega)]
        rw [utf8EncodeChar_of_ascii hascii, List.singleton_append, List.takeWhile_cons,
          List.takeWhile_cons, hbyte]
        cases c.isLower with
        | true => exact congrArg (· + 1) ih
        | false => rfl
      · have hlower : ¬ c.isLower = true := by
          rw [isLower_iff]
          omega
        obtain ⟨b, bs, hbytes⟩ := List.exists_cons_of_ne_nil (String.utf8EncodeChar_ne_nil (c := c))
        have hbound := (bounds_of_mem_utf8EncodeChar (Nat.le_of_not_lt hascii)
          (hbytes ▸ List.mem_cons_self)).1
        have hbyte : ¬ isLowerByte b = true := by
          rw [isLowerByte_iff]
          omega
        rw [hbytes, List.cons_append, List.takeWhile_cons_of_neg hbyte,
          List.takeWhile_cons_of_neg hlower]
        rfl

/-! ## Agreement -/

section

variable {source : String} {front body : List Char} (hsource : source.toList = front ++ body)

theorem offsetAfter_append (front body : List Char) (k n : Nat) :
    offsetAfter (front ++ body.take k) (body.drop k) n = offsetAfter front body (k + n) := by
  rw [offsetAfter, offsetAfter, List.append_assoc, ← List.take_add]

/-- The offset behind a character that stands behind a gap. -/
theorem offsetAfter_behind_gap
    (front : List Char) {body tail : List Char} {k gap : Nat} {c : Char}
    (htail : (body.drop k).drop gap = c :: tail) :
    offsetAfter front body k + (byteSize (body.drop k) - byteSize (c :: tail)) + c.utf8Size =
      offsetAfter front body (k + gap + 1) := by
  have hgap : byteSize (body.drop k) =
      byteSize ((body.drop k).take gap) + byteSize (c :: tail) := by
    rw [← htail, ← Token.byteSize_append, List.take_append_drop]
  have hlast : (body.drop (k + gap)).take 1 = [c] := by
    rw [← List.drop_drop, htail, List.take_succ_cons, List.take_zero]
  rw [hgap, Nat.add_sub_cancel, ← offsetAfter_append, offsetAfter, offsetAfter, hlast,
    List.take_add]
  simp only [Token.byteSize_append, Token.byteSize_cons]
  simp [byteSize, Nat.add_assoc]

include hsource

theorem toList_split (k : Nat) : source.toList = (front ++ body.take k) ++ body.drop k := by
  rw [hsource, List.append_assoc, List.take_append_drop]

theorem charsFrom_offsetAfter (k : Nat) :
    charsFrom (offsetAfter front body k) source.toList = body.drop k := by
  rw [toList_split hsource k, offsetAfter, charsFrom_byteSize]

/-- A body ends at the offset behind as many characters as the search by characters takes. -/
theorem delimitedEnd_eq (opener : Char) (k : Nat) :
    delimitedEnd source (offsetAfter front body k) opener =
      (delimited opener (body.drop k)).map fun n => offsetAfter front body (k + n) := by
  rw [delimitedEnd, charsFrom_offsetAfter hsource, delimitedEndFrom_charIndices, delimited]
  congr 1
  funext n
  rw [← offsetAfter_append, offsetAfter, offsetAfter, ← Token.byteSize_append]

theorem delimitedEnd_byteSize (opener : Char) :
    delimitedEnd source (byteSize front) opener =
      (delimited opener body).map (offsetAfter front body) := by
  have hends := delimitedEnd_eq hsource opener 0
  rw [offsetAfter_zero, List.drop_zero] at hends
  simpa only [Nat.zero_add] using hends

theorem furtherEnd_eq (opener : Char) (k : Nat) :
    furtherEnd source opener (offsetAfter front body k) =
      (secondPart opener (body.drop k)).map fun n => offsetAfter front body (k + n) := by
  unfold furtherEnd secondPart
  cases closingBracket? opener with
  | none => exact delimitedEnd_eq hsource opener k
  | some closer =>
      simp only [charsFrom_offsetAfter hsource, ← Text.drop_length_takeWhile]
      generalize (List.takeWhile Text.isBlank (body.drop k)).length = gap
      cases htail : (body.drop k).drop gap with
      | nil => rfl
      | cons second tail =>
          have hbody : body.drop (k + gap + 1) = tail := by
            rw [← List.drop_drop, ← List.drop_drop, htail, List.drop_succ_cons, List.drop_zero]
          simp only [offsetAfter_behind_gap front htail, delimitedEnd_eq hsource, hbody,
            Option.map_map]
          congr 1
          funext n
          rw [Function.comp_apply, Nat.add_assoc k, Nat.add_assoc k]

theorem modifiers_eq (k : Nat) :
    modifiers source (offsetAfter front body k) =
      ((body.drop k).takeWhile Char.isLower).length := by
  rw [modifiers, toList_data_toUTF8, toList_split hsource k, List.flatMap_append, offsetAfter,
    ← Token.length_flatMap_utf8EncodeChar, List.drop_left, length_takeWhile_isLowerByte]

theorem add_modifiers (k : Nat) :
    offsetAfter front body k + modifiers source (offsetAfter front body k) =
      offsetAfter front body (k + ((body.drop k).takeWhile Char.isLower).length) := by
  have hascii : ∀ c ∈ (body.drop k).takeWhile Char.isLower, c.toNat < 128 := by
    intro c hc
    have hlower := (isLower_iff c).mp (List.mem_takeWhile_imp hc)
    omega
  rw [modifiers_eq hsource, ← offsetAfter_append, offsetAfter, offsetAfter,
    Text.take_length_takeWhile, Token.byteSize_append _ (List.takeWhile _ _),
    byteSize_of_ascii hascii]

theorem partsEnd_eq (twoParts : Bool) (opener : Char) (k : Nat) :
    partsEnd source opener (if twoParts then 2 else 1) (offsetAfter front body k) =
      (partsLength twoParts opener (body.drop k)).map fun n => offsetAfter front body (k + n) := by
  rw [partsEnd, partsLength, delimitedEnd_eq hsource]
  cases delimited opener (body.drop k) with
  | none => rfl
  | some first =>
      cases twoParts with
      | false =>
          simp [add_modifiers hsource, Nat.add_assoc]
      | true =>
          have hrange : List.range (2 - 1) = [0] := rfl
          simp only [Option.map_some, Option.bind_eq_bind, Option.bind_some, if_true, hrange,
            List.foldlM_cons, List.foldlM_nil, furtherEnd_eq hsource, List.drop_drop]
          cases secondPart opener (body.drop (k + first)) with
          | none => rfl
          | some second => simp [add_modifiers hsource, Nat.add_assoc]

/-- A construct ends at the offset behind as many characters as it is long. -/
theorem quotedEnd_eq (twoParts : Bool) :
    quotedEnd source (byteSize front) (if twoParts then 2 else 1) =
      (extent twoParts body).map (offsetAfter front body) := by
  have hrest : charsFrom (byteSize front) source.toList = body := by
    rw [hsource, charsFrom_byteSize]
  unfold quotedEnd
  simp only [hrest, ← Text.drop_length_takeWhile]
  rw [extent_eq]
  have hgap : (body.takeWhile fun c => c == ' ' || c == '\t').length = operatorGap body := rfl
  simp only [hgap]
  cases htail : body.drop (operatorGap body) with
  | nil => rfl
  | cons opener tail =>
      have hbytes : byteSize body - byteSize (opener :: tail) = operatorGap body := by
        have hsplit := List.take_append_drop (operatorGap body) body
        have hsize := congrArg byteSize hsplit
        rw [Token.byteSize_append, byteSize_take_operatorGap, htail] at hsize
        omega
      have hoffset := offsetAfter_behind_gap front (k := 0) htail
      rw [offsetAfter_zero, List.drop_zero, hbytes, Nat.zero_add] at hoffset
      have hbody : body.drop (operatorGap body + 1) = tail := by
        rw [← List.drop_drop, htail, List.drop_succ_cons, List.drop_zero]
      dsimp only
      rw [hbytes, hoffset, partsEnd_eq hsource, hbody]
      split_ifs
      · rw [Option.map_map]
        rfl
      · rfl

end

/-- A body is made up of its units.  It ends behind the first unit that closes it, and has no end if
none does.  The end is a later place between characters, and so is that of a whole construct, which
lies behind the end of its first part if there are two.  The searches by offsets find these ends. -/
theorem delimited_ends_at_first_closing
    {source : String} {front body : List Char} (hsource : source.toList = front ++ body)
    {opener : Char} (hopener : opener ≠ '\\') :
    (units body).flatten = body ∧
    (∀ n, delimited opener body = some n ↔
      ∃ i, IsLeast {i | Closes opener (units body) i} i ∧
        n = ((units body).take (i + 1)).flatten.length) ∧
    (delimited opener body = none ↔ ∀ i, ¬ Closes opener (units body) i) ∧
    (∀ n, delimited opener body = some n →
      IsLaterBoundary source (byteSize front) (offsetAfter front body n)) ∧
    (∀ twoParts n, extent twoParts body = some n →
      IsLaterBoundary source (byteSize front) (offsetAfter front body n)) ∧
    (∀ n, extent true body = some n → ∃ first, FirstPartEnds body first ∧
      offsetAfter front body first < offsetAfter front body n) ∧
    delimitedEnd source (byteSize front) opener =
      (delimited opener body).map (offsetAfter front body) ∧
    ∀ twoParts, quotedEnd source (byteSize front) (if twoParts then 2 else 1) =
      (extent twoParts body).map (offsetAfter front body) := by
  refine ⟨flatten_units body, fun n => delimited_eq_some_iff hopener,
    delimited_eq_none_iff hopener, ?_, ?_, ?_, delimitedEnd_byteSize hsource opener,
    quotedEnd_eq hsource⟩
  · intro n h
    obtain ⟨hpos, hle⟩ := delimitedFrom_bounds h
    exact isLaterBoundary_offsetAfter hsource hpos hle
  · intro twoParts n h
    obtain ⟨hle, first, -, hpos, hfirst, -⟩ := exists_firstPartEnds h
    exact isLaterBoundary_offsetAfter hsource (by omega) hle
  · intro n h
    obtain ⟨hle, first, hends, -, -, hlt⟩ := exists_firstPartEnds h
    exact ⟨first, hends, offsetAfter_lt front (hlt rfl) hle⟩

/-- An escaped bracket and a nested pair are passed, and the body ends at the bracket behind them,
whose offset counts the two bytes of the letter. -/
theorem delimited_ends_behind_nested :
    "q<é\\><c>>;".toList = "q<".toList ++ "é\\><c>>;".toList ∧ '<' ≠ '\\' ∧
      delimited '<' "é\\><c>>;".toList = some 7 ∧
      (∃ i, IsLeast {i | Closes '<' (units "é\\><c>>;".toList) i} i ∧
        7 = ((units "é\\><c>>;".toList).take (i + 1)).flatten.length) ∧
      IsLaterBoundary "q<é\\><c>>;" 2 10 ∧ delimitedEnd "q<é\\><c>>;" 2 '<' = some 10 := by
  have hsource : "q<é\\><c>>;".toList = "q<".toList ++ "é\\><c>>;".toList := by decide
  have hopener : '<' ≠ '\\' := by decide
  have hend : delimited '<' "é\\><c>>;".toList = some 7 := by decide
  obtain ⟨-, hiff, -, hlater, -, -, hoffset, -⟩ := delimited_ends_at_first_closing hsource hopener
  rw [hend] at hoffset
  exact ⟨hsource, hopener, hend, (hiff 7).mp hend, hlater 7 hend, hoffset⟩

end Quoted

end MarkerDoc
