import MarkerDoc.Proofs.Balance

/-!
# Nesting of braces

The scanner counts braces in two places, in search of the end of a block and of the end of a
statement.  Here both ends are told without a running count.  The nesting of some tokens is the
number of braces that they open less the number that they close, and an end is the first index at
which the nesting of the tokens from the start up to it is as it should be.

A block ends where the tokens from its brace on first open and close equally many.  A statement ends
at the first token that stops it, and no brace is closed in it that it has not opened.  In both, one
token is looked at first, and what holds of the whole reading follows by induction: the count is the
nesting of the tokens that were passed.
-/

namespace MarkerDoc.Scan

/-! ## Nesting -/

/-- How many more braces some tokens open than they close. -/
def nesting (ts : List Token) : ℤ :=
  ts.countP isLeftBrace - ts.countP isRightBrace

section

variable {ts rest : List Token} {start i : Nat} {t : Token}

theorem nesting_nil : nesting [] = 0 := by
  simp [nesting]

theorem nesting_append (front after : List Token) :
    nesting (front ++ after) = nesting front + nesting after := by
  simp only [nesting, List.countP_append]
  push_cast
  ring

theorem nesting_leftBrace (ht : t.kind = .leftBrace) : nesting [t] = 1 := by
  simp [nesting, isLeftBrace, isRightBrace, ht]

theorem nesting_rightBrace (ht : t.kind = .rightBrace) : nesting [t] = -1 := by
  simp [nesting, isLeftBrace, isRightBrace, ht]

theorem nesting_other (hl : isLeftBrace t = false) (hr : isRightBrace t = false) :
    nesting [t] = 0 := by
  simp [nesting, hl, hr]

theorem nesting_extract_of_le (h : i ≤ start) : nesting (ts.extract start i) = 0 := by
  rw [List.extract_eq_take_drop, Nat.sub_eq_zero_of_le h, List.take_zero, nesting_nil]

/-- A token more adds its own nesting. -/
theorem nesting_extract_succ (hstart : start ≤ i) (hat : ts[i]? = some t) :
    nesting (ts.extract start (i + 1)) = nesting (ts.extract start i) + nesting [t] := by
  have hlast : (ts.drop start)[i - start]? = some t := by
    rw [List.getElem?_drop, Nat.add_sub_cancel' hstart, hat]
  rw [List.extract_eq_take_drop, Nat.sub_add_comm hstart, List.take_add_one, hlast,
    nesting_append]
  rfl

theorem drop_eq_cons_iff :
    ts.drop i = t :: rest ↔ ts[i]? = some t ∧ ts.drop (i + 1) = rest := by
  rw [← List.head?_drop, ← List.tail_drop]
  cases ts.drop i <;> simp

end

/-! ## Blocks -/

/-- The tokens from `start` up to `stop`, at least one, open and close equally many braces. -/
structure Evens (ts : List Token) (start stop : Nat) : Prop where
  start_lt : start < stop
  le_length : stop ≤ ts.length
  level : nesting (ts.extract start stop) = 0

section

variable {ts rest : List Token} {start i depth stop : Nat} {t : Token}

theorem Evens.succ_lt
    (h : Evens ts start stop) (hlt : i < stop)
    (hdepth : nesting (ts.extract start (i + 1)) = depth + 1) : i + 1 < stop := by
  refine lt_of_le_of_ne hlt ?_
  rintro rfl
  rw [h.level] at hdepth
  omega

theorem map_behind_succ (n? : Option Nat) (i : Nat) :
    (n?.map (· + 1)).map (i + ·) = n?.map (i + 1 + ·) := by
  rw [Option.map_map]
  congr 1
  funext n
  simp only [Function.comp_apply]
  omega

/-- Inside a block, a token either closes it or leaves it open. -/
theorem evens_or_passes
    (hstart : start ≤ i) (hat : ts[i]? = some t)
    (hdepth : nesting (ts.extract start i) = depth + 1) (rest : List Token) :
    Evens ts start (i + 1) ∧ blockLengthFrom (depth + 1) (t :: rest) = some 1 ∨
      ∃ depth' : Nat, nesting (ts.extract start (i + 1)) = depth' + 1 ∧
        blockLengthFrom (depth + 1) (t :: rest) =
          (blockLengthFrom (depth' + 1) rest).map (· + 1) := by
  have hstep := nesting_extract_succ hstart hat
  rw [hdepth] at hstep
  rcases brace_cases t with hkind | hkind | ⟨hl, hr⟩
  · rw [nesting_leftBrace hkind] at hstep
    exact .inr ⟨depth + 1, mod_cast hstep, blockLengthFrom_leftBrace _ _ hkind⟩
  · rw [nesting_rightBrace hkind] at hstep
    rw [blockLengthFrom_rightBrace _ _ hkind]
    cases depth with
    | zero =>
        have hlt : i < ts.length := (List.getElem?_eq_some_iff.mp hat).1
        exact .inl ⟨⟨Nat.lt_succ_of_le hstart, hlt, by simpa using hstep⟩, if_pos rfl⟩
    | succ depth =>
        refine .inr ⟨depth, ?_, if_neg (Nat.succ_ne_zero depth)⟩
        rw [hstep]
        push_cast
        ring
  · rw [nesting_other hl hr, add_zero] at hstep
    exact .inr ⟨depth, hstep, blockLengthFrom_other _ _ hl hr⟩

/-- The search for the end of a block, behind tokens that are nowhere even. -/
theorem blockLengthFrom_eq_some_iff
    (hstart : start ≤ i) (hrest : ts.drop i = rest)
    (hdepth : nesting (ts.extract start i) = depth + 1)
    (hpassed : ∀ stop, Evens ts start stop → i < stop) :
    (blockLengthFrom (depth + 1) rest).map (i + ·) = some stop ↔
      IsLeast {stop | Evens ts start stop} stop := by
  induction rest generalizing i depth with
  | nil =>
      constructor
      · intro h
        simp [blockLengthFrom] at h
      · rintro ⟨heven, -⟩
        have hlength := List.drop_eq_nil_iff.mp hrest
        exact absurd (heven.le_length.trans hlength) (hpassed stop heven).not_ge
  | cons t rest ih =>
      obtain ⟨hat, hbehind⟩ := drop_eq_cons_iff.mp hrest
      rcases evens_or_passes hstart hat hdepth rest with
        ⟨heven, hend⟩ | ⟨depth', hdepth', hnext⟩
      · have hleast : IsLeast {stop | Evens ts start stop} (i + 1) := ⟨heven, hpassed⟩
        rw [hend, Option.map_some, Option.some_inj]
        exact ⟨fun h => h ▸ hleast, hleast.unique⟩
      · -- The block is still open behind the token, so the tokens passed are not even there either.
        rw [hnext, map_behind_succ]
        exact ih (Nat.le_succ_of_le hstart) hbehind hdepth' fun stop heven =>
          heven.succ_lt (hpassed stop heven) hdepth'

theorem blockLength_eq_some_iff (hat : ts[start]? = some t) (ht : t.kind = .leftBrace) :
    (blockLength (ts.drop start)).map (start + ·) = some stop ↔
      IsLeast {stop | Evens ts start stop} stop := by
  have hrest : ts.drop start = t :: ts.drop (start + 1) := drop_eq_cons_iff.mpr ⟨hat, rfl⟩
  have hopen : nesting (ts.extract start (start + 1)) = (0 : Nat) + 1 := by
    rw [nesting_extract_succ le_rfl hat, nesting_extract_of_le le_rfl, nesting_leftBrace ht]
    rfl
  rw [hrest, blockLength, blockLengthFrom_leftBrace _ _ ht, map_behind_succ]
  exact blockLengthFrom_eq_some_iff (Nat.le_succ start) rfl hopen fun stop heven =>
    heven.succ_lt heven.start_lt hopen

theorem isSome_blockLength_iff (hat : ts[start]? = some t) (ht : t.kind = .leftBrace) :
    (blockLength (ts.drop start)).isSome ↔ ∃ stop, Evens ts start stop := by
  rw [← Option.isSome_map (f := (start + ·)), Option.isSome_iff_exists]
  simp only [blockLength_eq_some_iff hat ht]
  constructor
  · rintro ⟨stop, hleast⟩
    exact ⟨stop, hleast.1⟩
  · intro hexists
    classical
    exact ⟨_, Nat.isLeast_find hexists⟩

end

/-! ## Statements -/

/-- What ends a statement that begins at `start`: a semicolon outside all its braces, which is used
up, a brace that it has not opened, which is left, or, when `blockEnds`, the brace that closes its
block.  The indices are those at which the text ends and at which the scanner goes on. -/
inductive Stops (blockEnds : Bool) (ts : List Token) (start i : Nat) : Extent → Prop
  | semicolon {t : Token} (hstart : start ≤ i) (hat : ts[i]? = some t) (ht : t.kind = .semicolon)
      (hlevel : nesting (ts.extract start i) = 0) : Stops blockEnds ts start i ⟨i, i + 1⟩
  | unmatched {t : Token} (hstart : start ≤ i) (hat : ts[i]? = some t) (ht : t.kind = .rightBrace)
      (hlevel : nesting (ts.extract start i) = 0) : Stops blockEnds ts start i ⟨i, i⟩
  | block {t : Token} (hblock : blockEnds = true) (hstart : start ≤ i) (hat : ts[i]? = some t)
      (ht : t.kind = .rightBrace) (hlevel : nesting (ts.extract start (i + 1)) = 0) :
      Stops blockEnds ts start i ⟨i + 1, i + 1⟩

/-- The end of a statement that begins at `start`: the first token that stops it, or the end of the
tokens if none does. -/
inductive StatementEnds (blockEnds : Bool) (ts : List Token) (start : Nat) : Extent → Prop
  | stop {i : Nat} {e : Extent} (hstops : Stops blockEnds ts start i e)
      (hfirst : ∀ j e', Stops blockEnds ts start j e' → i ≤ j) :
      StatementEnds blockEnds ts start e
  | input (hnever : ∀ i e, ¬ Stops blockEnds ts start i e) :
      StatementEnds blockEnds ts start ⟨ts.length, ts.length⟩

section

variable {blockEnds : Bool} {ts rest : List Token} {start i depth : Nat} {t : Token}
  {e e' : Extent}

theorem Stops.start_le (h : Stops blockEnds ts start i e) : start ≤ i := by
  cases h <;> assumption

theorem Stops.exists_token (h : Stops blockEnds ts start i e) : ∃ t, ts[i]? = some t := by
  cases h <;> exact ⟨_, by assumption⟩

/-- What stops a statement, told by the braces that are open in front of the token. -/
theorem stops_iff (hstart : start ≤ i) (hat : ts[i]? = some t) :
    Stops blockEnds ts start i e ↔
      nesting (ts.extract start i) = 0 ∧
          (t.kind = .semicolon ∧ e = ⟨i, i + 1⟩ ∨ t.kind = .rightBrace ∧ e = ⟨i, i⟩) ∨
        nesting (ts.extract start i) = 1 ∧ t.kind = .rightBrace ∧ blockEnds = true ∧
          e = ⟨i + 1, i + 1⟩ := by
  have hstep := nesting_extract_succ hstart hat
  constructor
  · intro h
    cases h with
    | semicolon _ hat' ht hlevel =>
        obtain rfl := Option.some.inj (hat'.symm.trans hat)
        exact .inl ⟨hlevel, .inl ⟨ht, rfl⟩⟩
    | unmatched _ hat' ht hlevel =>
        obtain rfl := Option.some.inj (hat'.symm.trans hat)
        exact .inl ⟨hlevel, .inr ⟨ht, rfl⟩⟩
    | block hblock _ hat' ht hlevel =>
        obtain rfl := Option.some.inj (hat'.symm.trans hat)
        rw [nesting_rightBrace ht] at hstep
        exact .inr ⟨by omega, ht, hblock, rfl⟩
  · rintro (⟨hlevel, ⟨ht, rfl⟩ | ⟨ht, rfl⟩⟩ | ⟨hlevel, ht, hblock, rfl⟩)
    · exact .semicolon hstart hat ht hlevel
    · exact .unmatched hstart hat ht hlevel
    · rw [nesting_rightBrace ht] at hstep
      exact .block hblock hstart hat ht (by omega)

theorem Stops.unique
    (h : Stops blockEnds ts start i e) (h' : Stops blockEnds ts start i e') : e = e' := by
  obtain ⟨t, hat⟩ := h.exists_token
  have hstart := h.start_le
  rw [stops_iff hstart hat] at h h'
  rcases h with ⟨hlevel, ⟨ht, rfl⟩ | ⟨ht, rfl⟩⟩ | ⟨hlevel, ht, -, rfl⟩ <;> simp_all

theorem StatementEnds.unique
    (h : StatementEnds blockEnds ts start e) (h' : StatementEnds blockEnds ts start e') :
    e = e' := by
  cases h with
  | stop hstops hfirst =>
      cases h' with
      | stop hstops' hfirst' =>
          obtain rfl := le_antisymm (hfirst _ _ hstops') (hfirst' _ _ hstops)
          exact hstops.unique hstops'
      | input hnever => exact absurd hstops (hnever _ _)
  | input hnever =>
      cases h' with
      | stop hstops' => exact absurd hstops' (hnever _ _)
      | input => rfl

/-- A token either stops a statement, where the reading ends, or goes into it. -/
theorem stops_or_passes
    (blockEnds : Bool) (hstart : start ≤ i) (hat : ts[i]? = some t)
    (hdepth : nesting (ts.extract start i) = depth) (rest : List Token) :
    Stops blockEnds ts start i ((statementExtent blockEnds depth (t :: rest)).behind i) ∨
      (∀ e, ¬ Stops blockEnds ts start i e) ∧
        ∃ depth' : Nat, nesting (ts.extract start (i + 1)) = depth' ∧
          statementExtent blockEnds depth (t :: rest) =
            (statementExtent blockEnds depth' rest).succ := by
  have hstep := nesting_extract_succ hstart hat
  rw [hdepth] at hstep
  simp only [stops_iff hstart hat, hdepth]
  rcases brace_cases t with hkind | hkind | ⟨hl, hr⟩
  · rw [nesting_leftBrace hkind] at hstep
    refine .inr ⟨by simp [hkind], depth + 1, mod_cast hstep, ?_⟩
    exact statementExtent_leftBrace _ _ _ hkind
  · rw [nesting_rightBrace hkind] at hstep
    cases depth with
    | zero =>
        left
        simp [statementExtent, hkind, Extent.behind]
    | succ depth =>
        rw [statementExtent_rightBrace _ _ _ hkind]
        -- The last open brace is closed, which ends the statement only if blocks do.
        by_cases hblock : depth = 0 ∧ blockEnds
        · rw [if_pos hblock]
          left
          simp [hkind, hblock, Extent.behind, Nat.add_comm]
        · rw [if_neg hblock]
          refine .inr ⟨?_, depth, ?_, rfl⟩
          · rintro e (⟨hzero, -⟩ | ⟨hone, -, hends, -⟩)
            · omega
            · exact hblock ⟨by omega, hends⟩
          · rw [hstep]
            push_cast
            ring
  · rw [nesting_other hl hr] at hstep
    by_cases hends : depth = 0 ∧ t.kind = .semicolon
    · obtain ⟨rfl, hkind⟩ := hends
      rw [statementExtent_semicolon _ _ hkind]
      left
      simp [hkind, Extent.behind, Nat.add_comm]
    · refine .inr ⟨?_, depth, ?_, ?_⟩
      · rintro e (⟨hzero, ⟨hkind, -⟩ | ⟨hkind, -⟩⟩ | ⟨-, hkind, -⟩)
        · exact hends ⟨by omega, hkind⟩
        · exact Bool.false_ne_true (hr.symm.trans (isRightBrace_iff.mpr hkind))
        · exact Bool.false_ne_true (hr.symm.trans (isRightBrace_iff.mpr hkind))
      · rw [hstep, add_zero]
      · exact statementExtent_other _ _ _ hl hr fun hzero hkind => hends ⟨hzero, hkind⟩

/-- The reading of a statement, behind tokens of which none stops it. -/
theorem statementEnds_of_passed
    (hstart : start ≤ i) (hi : i ≤ ts.length) (hrest : ts.drop i = rest)
    (hdepth : nesting (ts.extract start i) = depth)
    (hpassed : ∀ j e, Stops blockEnds ts start j e → i ≤ j) :
    StatementEnds blockEnds ts start ((statementExtent blockEnds depth rest).behind i) := by
  induction rest generalizing i depth with
  | nil =>
      have hlength : i = ts.length := le_antisymm hi (List.drop_eq_nil_iff.mp hrest)
      have hnever : ∀ j e, ¬ Stops blockEnds ts start j e := by
        intro j e hstops
        obtain ⟨t, hat⟩ := hstops.exists_token
        have hlt := (List.getElem?_eq_some_iff.mp hat).1
        have hle := hpassed j e hstops
        omega
      have hend : (statementExtent blockEnds depth []).behind i = ⟨ts.length, ts.length⟩ := by
        simp [statementExtent, Extent.behind, hlength]
      rw [hend]
      exact .input hnever
  | cons t rest ih =>
      obtain ⟨hat, hbehind⟩ := drop_eq_cons_iff.mp hrest
      rcases stops_or_passes blockEnds hstart hat hdepth rest with
        hstops | ⟨hpasses, depth', hdepth', hnext⟩
      · exact .stop hstops hpassed
      · have hlt : i < ts.length := (List.getElem?_eq_some_iff.mp hat).1
        rw [hnext, Extent.behind_succ]
        refine ih (Nat.le_succ_of_le hstart) hlt hbehind hdepth' ?_
        intro j e hstops
        refine lt_of_le_of_ne (hpassed j e hstops) ?_
        rintro rfl
        exact hpasses e hstops

theorem nesting_nonneg_of_passed
    (hi : i ≤ ts.length) (hpassed : ∀ j e, Stops blockEnds ts start j e → i ≤ j) :
    0 ≤ nesting (ts.extract start i) := by
  induction i with
  | zero => rw [nesting_extract_of_le (Nat.zero_le start)]
  | succ i ih =>
      have hbefore := ih (by omega) fun j e h => Nat.le_of_succ_le (hpassed j e h)
      rcases Nat.lt_or_ge i start with hlt | hstart
      · rw [nesting_extract_of_le hlt]
      · obtain ⟨t, hat⟩ : ∃ t, ts[i]? = some t := ⟨_, List.getElem?_eq_getElem hi⟩
        rw [nesting_extract_succ hstart hat]
        rcases brace_cases t with hkind | hkind | ⟨hl, hr⟩
        · rw [nesting_leftBrace hkind]
          omega
        · -- A brace that was not opened would have stopped the statement.
          have hne : nesting (ts.extract start i) ≠ 0 := fun hlevel =>
            absurd (hpassed i _ (.unmatched hstart hat hkind hlevel)) (Nat.not_succ_le_self i)
          rw [nesting_rightBrace hkind]
          omega
        · rw [nesting_other hl hr]
          omega

theorem Stops.bounds (h : Stops blockEnds ts start i e) : i ≤ e.shown ∧ e.shown ≤ e.used := by
  cases h <;> simp

theorem StatementEnds.shown_le_used (h : StatementEnds blockEnds ts start e) :
    e.shown ≤ e.used := by
  cases h with
  | stop hstops => exact hstops.bounds.2
  | input => exact le_rfl

/-- The text of a statement closes no brace that it has not opened. -/
theorem StatementEnds.nesting_nonneg
    (h : StatementEnds blockEnds ts start e) (hi : i ≤ e.shown) :
    0 ≤ nesting (ts.extract start i) := by
  cases h with
  | @stop j _ hstops hfirst =>
      obtain ⟨t, hat⟩ := hstops.exists_token
      have hlt : j < ts.length := (List.getElem?_eq_some_iff.mp hat).1
      have hfront (hle : i ≤ j) : 0 ≤ nesting (ts.extract start i) :=
        nesting_nonneg_of_passed (hle.trans hlt.le) fun k e' hk => hle.trans (hfirst k e' hk)
      cases hstops with
      | semicolon => exact hfront hi
      | unmatched => exact hfront hi
      | block _ _ _ _ hlevel =>
          rcases Nat.le_succ_iff.mp hi with hle | rfl
          · exact hfront hle
          · exact hlevel.ge
  | input hnever =>
      exact nesting_nonneg_of_passed hi fun j e' hj => absurd hj (hnever j e')

/-- A statement that begins with neither a semicolon nor a right brace is not stopped there. -/
theorem StatementEnds.start_lt_used
    (h : StatementEnds blockEnds ts start e) (hat : ts[start]? = some t)
    (hbrace : t.kind ≠ .rightBrace) (hsemicolon : t.kind ≠ .semicolon) : start < e.used := by
  cases h with
  | @stop i _ hstops =>
      have hne : start ≠ i := by
        rintro rfl
        simp [stops_iff le_rfl hat, hbrace, hsemicolon] at hstops
      have hstart := hstops.start_le
      have hbounds := hstops.bounds
      omega
  | input =>
      exact (List.getElem?_eq_some_iff.mp hat).1

end

/-- Braces are matched exactly.  The block that opens at an index ends at the first index behind it
up to which equally many braces are opened and closed, and it ends at all if there is one.  A
statement that begins at an index ends at the first token that stops it, and nowhere else.  It uses
up a token, its text is no longer than what it uses up, and no front of the text closes more braces
than it opens. -/
theorem braces_match_exactly
    {ts : List Token} {start : Nat} {t : Token} (here : ts[start]? = some t) :
    (t.kind = .leftBrace →
      ((blockLength (ts.drop start)).isSome ↔ ∃ stop, Evens ts start stop) ∧
      ∀ stop, (blockLength (ts.drop start)).map (start + ·) = some stop ↔
        IsLeast {stop | Evens ts start stop} stop) ∧
    (t.kind ≠ .rightBrace → t.kind ≠ .semicolon →
      ∀ blockEnds ends, (statementExtent blockEnds 0 (ts.drop start)).behind start = ends →
        start < ends.used ∧ ends.shown ≤ ends.used ∧
        (∀ i ≤ ends.shown, 0 ≤ nesting (ts.extract start i)) ∧
        StatementEnds blockEnds ts start ends ∧
        ∀ other, StatementEnds blockEnds ts start other → other = ends) := by
  constructor
  · intro hopen
    exact ⟨isSome_blockLength_iff here hopen, fun stop => blockLength_eq_some_iff here hopen⟩
  · rintro hbrace hsemicolon blockEnds ends rfl
    have hlt : start < ts.length := (List.getElem?_eq_some_iff.mp here).1
    have hends : StatementEnds blockEnds ts start
        ((statementExtent blockEnds 0 (ts.drop start)).behind start) :=
      statementEnds_of_passed le_rfl hlt.le rfl (nesting_extract_of_le le_rfl)
        fun _ _ hstops => hstops.start_le
    exact ⟨hends.start_lt_used here hbrace hsemicolon, hends.shown_le_used,
      fun _ hi => hends.nesting_nonneg hi, hends, fun _ hother => hother.unique hends⟩

/-- A block in a block, with a word and an unmatched brace behind.  As a block statement it ends
with its own block, otherwise in front of the brace that it has not opened. -/
theorem braces_match_exactly_nested :
    let ts := Token.lex "f; \x7b \x7b g; \x7d \x7d h \x7d"
    ts[2]? = some ⟨.leftBrace, 3, "\x7b"⟩ ∧ IsLeast {stop | Evens ts 2 stop} 8 ∧
      StatementEnds true ts 2 ⟨8, 8⟩ ∧ StatementEnds false ts 2 ⟨9, 9⟩ := by
  intro ts
  have here : ts[2]? = some ⟨.leftBrace, 3, "\x7b"⟩ := by decide +kernel
  have hblock : (blockLength (ts.drop 2)).map (2 + ·) = some 8 := by decide +kernel
  have hfirst : (statementExtent true 0 (ts.drop 2)).behind 2 = ⟨8, 8⟩ := by decide +kernel
  have hlater : (statementExtent false 0 (ts.drop 2)).behind 2 = ⟨9, 9⟩ := by decide +kernel
  obtain ⟨hblocks, hstatements⟩ := braces_match_exactly here
  have hends (blockEnds : Bool) (ends : Extent)
      (h : (statementExtent blockEnds 0 (ts.drop 2)).behind 2 = ends) :
      StatementEnds blockEnds ts 2 ends :=
    (hstatements (by decide) (by decide) blockEnds ends h).2.2.2.1
  exact ⟨here, ((hblocks rfl).2 8).mp hblock, hends true _ hfirst, hends false _ hlater⟩

end MarkerDoc.Scan
