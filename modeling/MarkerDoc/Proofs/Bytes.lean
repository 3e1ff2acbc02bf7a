import MarkerDoc.Proofs.ByteOrder
import MarkerDoc.Proofs.Path

/-!
# Texts and the bytes that spell them

A text is spelled by exactly one sequence of bytes, and reading these gives the text back; other
bytes are no text.  The bytes of a character outside ASCII are all outside ASCII.  So slashes and
dots stand in the bytes where they stand in the text, and what is divided there is divided alike.
Reading with replacement characters keeps this: it neither makes nor loses a character of ASCII.
-/

namespace MarkerDoc.Bytes

/-! ## Single bytes -/

theorem toNat_char (b : UInt8) : (char b).toNat = b.toNat := by
  have hvalid : b.toNat.isValidChar := .inl (b.toNat_lt.trans (by decide))
  rw [char, Char.toNat_ofNat, if_pos hvalid]

theorem byte_char (b : UInt8) : byte (char b) = b := by
  rw [byte, toNat_char, if_pos b.toNat_lt, UInt8.ofNat_toNat]

theorem char_byte {c : Char} (h : byte c ≠ 0xFF) : char (byte c) = c := by
  unfold byte at h ⊢
  split_ifs at h ⊢ with hc
  · rw [char, UInt8.toNat_ofNat', Nat.mod_eq_of_lt hc, Char.ofNat_toNat]
  · exact absurd rfl h

theorem toNat_byte_of_ascii {c : Char} (h : (byte c).toNat < 128) : (byte c).toNat = c.toNat := by
  unfold byte at h ⊢
  split_ifs at h ⊢ with hc
  · rw [UInt8.toNat_ofNat', Nat.mod_eq_of_lt hc]
  · exact absurd h (by decide)

/-! ## Characters -/

theorem ofChar_of_ascii {c : Char} (h : c.toNat < 128) : ofChar c = [c] := by
  rw [ofChar, utf8EncodeChar_of_ascii h, List.map_singleton, char, UInt8.toNat_ofNat',
    Nat.mod_eq_of_lt (by omega), Char.ofNat_toNat]

theorem le_of_mem_ofChar {c x : Char} (h : 128 ≤ c.toNat) (hx : x ∈ ofChar c) : 128 ≤ x.toNat := by
  obtain ⟨b, hb, rfl⟩ := List.mem_map.mp hx
  rw [toNat_char]
  exact (bounds_of_mem_utf8EncodeChar h hb).1

theorem mem_ofChar_iff {c x : Char} (hx : x.toNat < 128) : x ∈ ofChar c ↔ x = c := by
  by_cases hc : c.toNat < 128
  · rw [ofChar_of_ascii hc, List.mem_singleton]
  · refine iff_of_false (fun hmem => ?_) (fun heq => hc (heq ▸ hx))
    exact absurd (le_of_mem_ofChar (not_lt.mp hc) hmem) (not_le.mpr hx)

theorem ofChar_ne_nil (c : Char) : ofChar c ≠ [] := by
  simp [ofChar, String.utf8EncodeChar_ne_nil]

/-! ## Texts -/

@[simp] theorem toList_ofText (s : String) : (ofText s).toList = s.toList.flatMap ofChar := by
  rw [ofText, String.toList_ofList]

theorem ofText_append (s t : String) : ofText (s ++ t) = ofText s ++ ofText t := by
  rw [← String.toList_inj]
  simp

theorem ofText_of_ascii {s : String} (h : s.toList.all (·.toNat < 128) = true) : ofText s = s := by
  simp only [List.all_eq_true, decide_eq_true_eq] at h
  rw [← String.toList_inj, toList_ofText, List.flatMap_congr fun c hc => ofChar_of_ascii (h c hc)]
  exact List.flatMap_singleton' _

theorem mem_ofText_iff {s : String} {x : Char} (hx : x.toNat < 128) :
    x ∈ (ofText s).toList ↔ x ∈ s.toList := by
  simp only [toList_ofText, List.mem_flatMap, mem_ofChar_iff hx, exists_eq_right']

theorem ofText_eq_of_ascii {s t : String} (ht : t.toList.all (·.toNat < 128) = true) :
    ofText s = t ↔ s = t := by
  constructor
  · intro h
    have hs : s.toList.all (·.toNat < 128) = true := by
      simp only [List.all_eq_true, decide_eq_true_eq] at ht ⊢
      intro c hc
      by_contra hlarge
      obtain ⟨x, hx⟩ := List.exists_mem_of_ne_nil _ (ofChar_ne_nil c)
      have hmem : x ∈ t.toList := by
        rw [← h, toList_ofText]
        exact List.mem_flatMap.mpr ⟨c, hc, hx⟩
      have hle := le_of_mem_ofChar (not_lt.mp hlarge) hx
      exact absurd (ht x hmem) (not_lt.mpr hle)
    rwa [ofText_of_ascii hs] at h
  · rintro rfl
    exact ofText_of_ascii ht

theorem toList_toArray (s : String) : (toArray s).data.toList = s.toList.map byte := rfl

theorem toArray_ofText (s : String) : toArray (ofText s) = s.toUTF8 := by
  rw [ByteArray.ext_iff, ← Array.toList_inj, toList_toArray, toList_ofText, toList_data_toUTF8,
    List.map_flatMap]
  apply List.flatMap_congr
  intro c _
  rw [ofChar, List.map_map, (funext byte_char : byte ∘ char = id), List.map_id]

/-- No byte of a text is the one for characters that stand for none. -/
theorem ne_of_mem_utf8EncodeChar {c : Char} {b : UInt8} (h : b ∈ String.utf8EncodeChar c) :
    b ≠ 0xFF := by
  rintro rfl
  by_cases hascii : c.toNat < 128
  · rw [utf8EncodeChar_of_ascii hascii, List.mem_singleton] at h
    have hcode := congrArg UInt8.toNat h
    rw [UInt8.toNat_ofNat', Nat.mod_eq_of_lt (by omega)] at hcode
    rw [← hcode] at hascii
    exact absurd hascii (by decide)
  · exact absurd (bounds_of_mem_utf8EncodeChar (not_lt.mp hascii) h).2 (by decide)

/-- The bytes of a text are the only ones that are read as it. -/
theorem toText?_eq_some_iff {s t : String} : toText? s = some t ↔ s = ofText t := by
  rw [toText?, fromUTF8?_eq_some_iff]
  constructor
  · intro h
    have hbytes : s.toList.map byte = t.toList.flatMap String.utf8EncodeChar := by
      rw [← toList_data_toUTF8, ← h, toList_toArray]
    have hmem : ∀ c ∈ s.toList, byte c ≠ 0xFF := by
      intro c hc
      have hbyte : byte c ∈ t.toList.flatMap String.utf8EncodeChar := by
        rw [← hbytes]
        exact List.mem_map_of_mem hc
      obtain ⟨x, -, hx⟩ := List.mem_flatMap.mp hbyte
      exact ne_of_mem_utf8EncodeChar hx
    rw [← String.toList_inj, toList_ofText]
    have hback : ∀ c ∈ s.toList, (char ∘ byte) c = id c := fun c hc => char_byte (hmem c hc)
    calc s.toList = (s.toList.map byte).map char := by
          rw [List.map_map, List.map_congr_left hback, List.map_id]
      _ = t.toList.flatMap ofChar := by
          rw [hbytes, List.map_flatMap]
          rfl
  · rintro rfl
    exact toArray_ofText t

@[simp] theorem toText?_ofText (s : String) : toText? (ofText s) = some s :=
  toText?_eq_some_iff.mpr rfl

theorem toText_of_toText? {s t : String} (h : toText? s = some t) : toText s = t := by
  rw [toText, Text.decode, ← toText?, h]

@[simp] theorem toText_ofText (s : String) : toText (ofText s) = s :=
  toText_of_toText? (toText?_ofText s)

theorem ofText_injective : Function.Injective ofText := by
  intro s t h
  rw [← toText_ofText s, h, toText_ofText]

/-- Bytes are a text if reading them with replacement characters loses nothing. -/
theorem ofText_toText_eq_iff {s : String} : ofText (toText s) = s ↔ (toText? s).isSome := by
  constructor
  · intro h
    rw [← h, toText?_ofText]
    rfl
  · intro h
    obtain ⟨t, ht⟩ := Option.isSome_iff_exists.mp h
    rw [toText_of_toText? ht, toText?_eq_some_iff.mp ht]

/-! ## Division -/

theorem head?_ofText_eq_some_iff {s : String} {x : Char} (hx : x.toNat < 128) :
    (ofText s).toList.head? = some x ↔ s.toList.head? = some x := by
  rw [toList_ofText]
  cases s.toList with
  | nil => rfl
  | cons c cs =>
      obtain ⟨y, ys, hy⟩ := List.exists_cons_of_ne_nil (ofChar_ne_nil c)
      rw [List.flatMap_cons, hy, List.cons_append, List.head?_cons, List.head?_cons,
        Option.some.injEq, Option.some.injEq]
      constructor
      · rintro rfl
        exact ((mem_ofChar_iff hx).mp (hy ▸ List.mem_cons_self)).symm
      · rintro rfl
        rw [ofChar_of_ascii hx] at hy
        exact (List.cons.inj hy).1.symm

theorem isAbsolute_ofText (s : String) : Path.isAbsolute ⟨ofText s⟩ = Path.isAbsolute ⟨s⟩ := by
  rw [Bool.eq_iff_iff, Path.isAbsolute, Path.isAbsolute, beq_iff_eq, beq_iff_eq]
  exact head?_ofText_eq_some_iff (by decide)

theorem ofText_joinWith (pieces : List String) :
    ofText (Text.joinWith "/" pieces) = Text.joinWith "/" (pieces.map ofText) := by
  have hslash : ofText "/" = "/" := by decide
  induction pieces with
  | nil => rfl
  | cons piece rest ih =>
      cases rest with
      | nil => rfl
      | cons next rest =>
          rw [Text.joinWith, ofText_append, ofText_append, hslash, ih]
          rfl

/-- The bytes of a text have slashes where the text has them. -/
theorem splitOn_ofText (s : String) :
    Text.splitOn "/" (ofText s) = (Text.splitOn "/" s).map ofText := by
  conv_lhs => rw [← Text.joinWith_splitOn_slash s, ofText_joinWith]
  apply Text.splitOn_slash_joinWith
  · simpa using Text.splitOn_slash_ne_nil s
  · intro piece hpiece
    obtain ⟨t, ht, rfl⟩ := List.mem_map.mp hpiece
    rw [mem_ofText_iff (by decide)]
    exact Text.slash_not_mem_of_mem_splitOn ht

theorem not_dot_mem_tail_ofText {s : String} (h : '.' ∉ s.toList.tail) :
    '.' ∉ (ofText s).toList.tail := by
  rw [toList_ofText]
  cases hs : s.toList with
  | nil => simp
  | cons c cs =>
      rw [hs, List.tail_cons] at h
      obtain ⟨x, xs, hx⟩ := List.exists_cons_of_ne_nil (ofChar_ne_nil c)
      rw [List.flatMap_cons, hx, List.cons_append, List.tail_cons, List.mem_append]
      rintro (hmem | hmem)
      · by_cases hc : c.toNat < 128
        · rw [ofChar_of_ascii hc, List.cons.injEq] at hx
          simp [← hx.2] at hmem
        · have hle := le_of_mem_ofChar (not_lt.mp hc) (hx ▸ List.mem_cons_of_mem x hmem)
          exact absurd hle (by decide)
      · obtain ⟨d, hd, hdot⟩ := List.mem_flatMap.mp hmem
        exact h ((mem_ofChar_iff (by decide)).mp hdot ▸ hd)

/-- The bytes of a name have their extension where the name has it. -/
theorem splitName_ofText (s : String) :
    Path.splitName (ofText s) =
      (ofText (Path.splitName s).1, (Path.splitName s).2.map ofText) := by
  by_cases hup : s = ".."
  · subst hup
    decide +kernel
  · by_cases hdot : '.' ∈ s.toList.tail
    · obtain ⟨front, back, hfront, hback, hs⟩ := Path.exists_last_dot hdot
      have hne : front.flatMap ofChar ≠ [] := by
        obtain ⟨c, cs, rfl⟩ := List.exists_cons_of_ne_nil hfront
        simp [ofChar_ne_nil]
      have hbytes : (ofText s).toList = front.flatMap ofChar ++ '.' :: back.flatMap ofChar := by
        rw [toList_ofText, hs, List.flatMap_append, List.flatMap_cons,
          ofChar_of_ascii (by decide : '.'.toNat < 128)]
        rfl
      have hback' : '.' ∉ back.flatMap ofChar := by
        rw [List.mem_flatMap]
        rintro ⟨c, hc, hmem⟩
        exact hback ((mem_ofChar_iff (by decide)).mp hmem ▸ hc)
      have hup' : ofText s ≠ ".." := mt (ofText_eq_of_ascii (by decide)).mp hup
      rw [Path.splitName_at_dot hfront hback hs hup,
        Path.splitName_at_dot hne hback' hbytes hup']
      simp [ofText]
    · rw [Path.splitName_of_no_inner_dot hdot,
        Path.splitName_of_no_inner_dot (not_dot_mem_tail_ofText hdot)]
      rfl

/-! ## Reading with replacement characters -/

theorem toNat_ofNat_of_bounds {n : ℕ} (h : n < 0xD800 ∨ 0xDFFF < n ∧ n < 0x110000) :
    (Char.ofNat n).toNat = n := by
  rw [Char.toNat_ofNat, if_pos h]

/-- The bytes behind a leading byte that go into its character all lie in their ranges, or there is
a replacement character. -/
theorem exists_trailFrom (bits : ℕ) (ranges : List (ℕ × ℕ)) (bs : List ℕ) :
    ∃ c taken rest, Text.trailFrom bits ranges bs = (c, rest) ∧ bs = taken ++ rest ∧
      (∀ x ∈ taken, ∃ r ∈ ranges, r.1 ≤ x) ∧
      (c = Text.replacement ∨
        List.Forall₂ (fun r x => r.1 ≤ x ∧ x ≤ r.2) ranges taken ∧
          c = Char.ofNat (taken.foldl (fun n x => n * 64 + x % 64) bits)) := by
  induction ranges generalizing bits bs with
  | nil => exact ⟨_, [], bs, rfl, rfl, by simp, .inr ⟨.nil, rfl⟩⟩
  | cons range ranges ih =>
      cases bs with
      | nil => exact ⟨_, [], [], rfl, rfl, by simp, .inl rfl⟩
      | cons b bs =>
          obtain ⟨low, high⟩ := range
          rw [Text.trailFrom]
          split_ifs with hb
          · rw [Bool.and_eq_true, decide_eq_true_eq, decide_eq_true_eq] at hb
            obtain ⟨c, taken, rest, htrail, rfl, htaken, hc⟩ := ih (bits * 0x40 + b % 0x40) bs
            refine ⟨c, b :: taken, rest, htrail, rfl, ?_, ?_⟩
            · intro x hx
              rcases List.mem_cons.mp hx with rfl | hx
              · exact ⟨(low, high), by simp, hb.1⟩
              · obtain ⟨r, hr, hle⟩ := htaken x hx
                exact ⟨r, List.mem_cons_of_mem _ hr, hle⟩
            · exact hc.imp_right fun h => ⟨.cons hb h.1, h.2⟩
          · exact ⟨_, [], b :: bs, rfl, rfl, by simp, .inl rfl⟩

theorem le_toNat_replacement : 128 ≤ Text.replacement.toNat := by decide

theorem le_of_mem_trailRanges?
    {b : ℕ} {ranges : List (ℕ × ℕ)} (h : Text.trailRanges? b = some ranges) :
    ∀ r ∈ ranges, 128 ≤ r.1 := by
  unfold Text.trailRanges? at h
  simp only at h
  split_ifs at h <;> cases h <;> simp

/-- The ranges are such that no short form of a character and no half of a pair is read. -/
theorem le_toNat_ofNat_of_trailRanges?
    {b : ℕ} (hb : 128 ≤ b) {ranges : List (ℕ × ℕ)} (h : Text.trailRanges? b = some ranges)
    {taken : List ℕ} (htaken : List.Forall₂ (fun r x => r.1 ≤ x ∧ x ≤ r.2) ranges taken) :
    128 ≤ (Char.ofNat (taken.foldl (fun n x => n * 64 + x % 64)
      (Text.leadBits ranges.length b))).toNat := by
  unfold Text.trailRanges? at h
  simp only at h
  split_ifs at h
  · omega
  all_goals
    cases h
    simp only [List.forall₂_cons_left_iff, List.forall₂_nil_left_iff] at htaken
  -- One byte behind the leading one, then the three ways with two, then those with three.
  · obtain ⟨x, _, hx, rfl, rfl⟩ := htaken
    simp only [List.foldl_cons, List.foldl_nil, List.length_cons, List.length_nil, Text.leadBits]
    rw [toNat_ofNat_of_bounds] <;> omega
  iterate 3
    · obtain ⟨x, _, hx, ⟨y, _, hy, rfl, rfl⟩, rfl⟩ := htaken
      simp only [List.foldl_cons, List.foldl_nil, List.length_cons, List.length_nil, Text.leadBits]
      rw [toNat_ofNat_of_bounds] <;> omega
  iterate 3
    · obtain ⟨x, _, hx, ⟨y, _, hy, ⟨z, _, hz, rfl, rfl⟩, rfl⟩, rfl⟩ := htaken
      simp only [List.foldl_cons, List.foldl_nil, List.length_cons, List.length_nil, Text.leadBits]
      rw [toNat_ofNat_of_bounds] <;> omega

/-- What stands for bytes from outside ASCII is outside ASCII, and only such bytes go into it. -/
theorem exists_decodeFrom_cons {b : ℕ} (h : 128 ≤ b) (fuel : ℕ) (bs : List ℕ) :
    ∃ c taken rest, Text.decodeFrom (fuel + 1) (b :: bs) = c :: Text.decodeFrom fuel rest ∧
      128 ≤ c.toNat ∧ bs = taken ++ rest ∧ ∀ x ∈ taken, 128 ≤ x := by
  rw [Text.decodeFrom]
  cases hranges : Text.trailRanges? b with
  | none => exact ⟨_, [], bs, rfl, le_toNat_replacement, rfl, by simp⟩
  | some ranges =>
      obtain ⟨c, taken, rest, htrail, hbs, htaken, hc⟩ :=
        exists_trailFrom (Text.leadBits ranges.length b) ranges bs
      refine ⟨c, taken, rest, by simp only [htrail], ?_, hbs, ?_⟩
      · rcases hc with rfl | ⟨hforall, rfl⟩
        · exact le_toNat_replacement
        · exact le_toNat_ofNat_of_trailRanges? h hranges hforall
      · intro x hx
        obtain ⟨r, hr, hle⟩ := htaken x hx
        exact (le_of_mem_trailRanges? hranges r hr).trans hle

theorem decodeFrom_cons_of_ascii {b : ℕ} (h : b < 128) (fuel : ℕ) (bs : List ℕ) :
    Text.decodeFrom (fuel + 1) (b :: bs) = Char.ofNat b :: Text.decodeFrom fuel bs := by
  rw [Text.decodeFrom, Text.trailRanges?, if_pos h]
  rfl

theorem mem_of_mem_decodeFrom
    {fuel : ℕ} {bs : List ℕ} {c : Char} (hc : c.toNat < 128) (h : c ∈ Text.decodeFrom fuel bs) :
    c.toNat ∈ bs := by
  induction fuel generalizing bs with
  | zero => simp [Text.decodeFrom] at h
  | succ fuel ih =>
      cases bs with
      | nil => simp [Text.decodeFrom] at h
      | cons b bs =>
          by_cases hb : b < 128
          · rw [decodeFrom_cons_of_ascii hb, List.mem_cons] at h
            rcases h with rfl | h
            · rw [toNat_ofNat_of_bounds (by omega)]
              exact List.mem_cons_self
            · exact List.mem_cons_of_mem b (ih h)
          · obtain ⟨d, taken, rest, hdecode, hd, rfl, -⟩ :=
              exists_decodeFrom_cons (not_lt.mp hb) fuel bs
            rw [hdecode, List.mem_cons] at h
            rcases h with rfl | h
            · omega
            · exact List.mem_cons_of_mem b (List.mem_append_right taken (ih h))

/-- Where all that is read is ASCII, nothing was replaced. -/
theorem map_toNat_decodeFrom
    {fuel : ℕ} {bs : List ℕ} (hfuel : bs.length ≤ fuel)
    (h : ∀ c ∈ Text.decodeFrom fuel bs, c.toNat < 128) :
    (Text.decodeFrom fuel bs).map Char.toNat = bs := by
  induction fuel generalizing bs with
  | zero =>
      obtain rfl := List.length_eq_zero_iff.mp (Nat.le_zero.mp hfuel)
      rfl
  | succ fuel ih =>
      cases bs with
      | nil => rfl
      | cons b bs =>
          by_cases hb : b < 128
          · rw [decodeFrom_cons_of_ascii hb] at h ⊢
            rw [List.map_cons, toNat_ofNat_of_bounds (by omega),
              ih (Nat.le_of_succ_le_succ hfuel) fun c hc => h c (List.mem_cons_of_mem _ hc)]
          · obtain ⟨d, taken, rest, hdecode, hd, -⟩ :=
              exists_decodeFrom_cons (not_lt.mp hb) fuel bs
            have hlt := h d (hdecode ▸ List.mem_cons_self)
            omega

theorem toList_toText_of_none {s : String} (h : toText? s = none) :
    (toText s).toList =
      Text.decodeFrom s.toList.length (s.toList.map fun c => (byte c).toNat) := by
  have hsize : (toArray s).size = s.toList.length := List.length_map byte
  rw [toText, Text.decode, ← toText?, h, hsize, toList_toArray, List.map_map]
  exact String.toList_ofList

/-- Reading bytes with replacement characters makes no character of ASCII. -/
theorem mem_of_mem_toText {s : String} {c : Char} (hc : c.toNat < 128) (h : c ∈ (toText s).toList) :
    c ∈ s.toList := by
  cases htext : toText? s with
  | some t =>
      rw [toText_of_toText? htext] at h
      rw [toText?_eq_some_iff.mp htext, mem_ofText_iff hc]
      exact h
  | none =>
      rw [toList_toText_of_none htext] at h
      obtain ⟨d, hd, heq⟩ := List.mem_map.mp (mem_of_mem_decodeFrom hc h)
      have hsame : d.toNat = c.toNat := (toNat_byte_of_ascii (heq ▸ hc)).symm.trans heq
      rw [← Char.ofNat_toNat c, ← hsame, Char.ofNat_toNat]
      exact hd

/-- Bytes that read like ASCII are ASCII. -/
theorem toText_eq_of_ascii {s t : String} (ht : t.toList.all (·.toNat < 128) = true) :
    toText s = t ↔ s = t := by
  constructor
  · intro h
    cases htext : toText? s with
    | some u =>
        rw [toText_of_toText? htext] at h
        rw [toText?_eq_some_iff.mp htext, h, ofText_of_ascii ht]
    | none =>
        have hlist := toList_toText_of_none htext
        have hascii : ∀ c ∈ (toText s).toList, c.toNat < 128 := by
          rw [h]
          simpa using ht
        rw [hlist] at hascii
        have hbytes := map_toNat_decodeFrom (by simp) hascii
        rw [← hlist, h] at hbytes
        have hcode : ∀ c ∈ s.toList, (byte c).toNat = c.toNat := by
          intro c hc
          apply toNat_byte_of_ascii
          have hmem := List.mem_map_of_mem (f := fun c => (byte c).toNat) hc
          rw [← hbytes] at hmem
          obtain ⟨d, hd, heq⟩ := List.mem_map.mp hmem
          rw [← heq]
          simpa using List.all_eq_true.mp ht d hd
        rw [List.map_congr_left hcode] at hbytes
        rw [← String.toList_inj]
        exact (List.map_injective_iff.mpr (fun c d => Char.toNat_inj.mp) hbytes).symm
  · rintro rfl
    exact toText_of_toText? (toText?_eq_some_iff.mpr (ofText_of_ascii ht).symm)

end MarkerDoc.Bytes
