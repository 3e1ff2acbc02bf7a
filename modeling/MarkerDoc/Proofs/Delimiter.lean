import MarkerDoc.Proofs.Lexer
import MarkerDoc.Proofs.Quoted
import Mathlib.Order.Bounds.Defs

/-!
# Where a quoted body ends

A quoted body is a sequence of units: a backslash with the character after it, or a single
character.  The search for its end counts brackets as it goes.  Here the end is told by position
instead: it is the first closing delimiter that is a unit of its own and stands behind as many
opening as closing brackets.  A delimiter that is no bracket closes itself, and counts nothing.

The search takes at least one character and never leaves the text.  So a quote-like construct ends
behind the place where it was looked for, and its second part behind the first.
-/

namespace MarkerDoc.Quoted

/-! ## Units -/

/-- The units of a body.  A backslash at the very end stands alone. -/
def units : List Char → List (List Char)
  | [] => []
  | [c] => [[c]]
  | c :: d :: rest => if c = '\\' then [c, d] :: units rest else [c] :: units (d :: rest)

theorem units_escape (d : Char) (rest : List Char) :
    units ('\\' :: d :: rest) = ['\\', d] :: units rest := by
  rw [units, if_pos rfl]

theorem units_cons {c : Char} (h : c ≠ '\\') (cs : List Char) :
    units (c :: cs) = [c] :: units cs := by
  cases cs with
  | nil => rfl
  | cons d rest => rw [units, if_neg h]

/-- A body is empty, a backslash alone, or a unit with a body behind it. -/
@[elab_as_elim]
theorem units_induction
    {motive : List Char → Prop} (nil : motive []) (lone : motive ['\\'])
    (escape : ∀ d rest, motive rest → motive ('\\' :: d :: rest))
    (single : ∀ c cs, c ≠ '\\' → motive cs → motive (c :: cs)) (body : List Char) :
    motive body := by
  induction body using units.induct with
  | case1 => exact nil
  | case2 c =>
      by_cases hc : c = '\\'
      · exact hc ▸ lone
      · exact single c [] hc nil
  | case3 d rest ih => exact escape d rest ih
  | case4 c d rest hc ih => exact single c (d :: rest) hc ih

theorem flatten_units (cs : List Char) : (units cs).flatten = cs := by
  induction cs using units_induction with
  | nil => rfl
  | lone => rfl
  | escape d rest ih => simp [units_escape, ih]
  | single c cs hc ih => simp [units_cons hc, ih]

/-! ## The search -/

/-- The unit at a position closes a body in which `depth` brackets are open. -/
def ClosesFrom (opener closer : Char) (depth : Nat) (us : List (List Char)) (i : Nat) : Prop :=
  us[i]? = some [closer] ∧ (us.take i).count [opener] + depth = (us.take i).count [closer]

/-- The number of characters through the first unit that closes. -/
def EndsAfter (opener closer : Char) (depth : Nat) (us : List (List Char)) (n : Nat) : Prop :=
  ∃ i, IsLeast {i | ClosesFrom opener closer depth us i} i ∧ n = (us.take (i + 1)).flatten.length

section

variable {opener closer : Char} {depth : Nat} {u : List Char} {us : List (List Char)}

theorem closesFrom_zero_iff :
    ClosesFrom opener closer depth (u :: us) 0 ↔ u = [closer] ∧ depth = 0 := by
  simp [ClosesFrom]

theorem closesFrom_succ_iff {i : Nat} :
    ClosesFrom opener closer depth (u :: us) (i + 1) ↔
      us[i]? = some [closer] ∧
        (us.take i).count [opener] + (if u = [opener] then 1 else 0) + depth =
          (us.take i).count [closer] + (if u = [closer] then 1 else 0) := by
  simp [ClosesFrom, List.count_cons]

theorem not_endsAfter_nil {n : Nat} : ¬ EndsAfter opener closer depth [] n := by
  rintro ⟨i, ⟨⟨hat, -⟩, -⟩, -⟩
  simp at hat

theorem endsAfter_closer_iff {n : Nat} :
    EndsAfter opener closer 0 ([closer] :: us) n ↔ n = 1 := by
  have hleast : ∀ i, IsLeast {i | ClosesFrom opener closer 0 ([closer] :: us) i} i ↔ i = 0 := by
    intro i
    have hzero : ClosesFrom opener closer 0 ([closer] :: us) 0 := closesFrom_zero_iff.mpr ⟨rfl, rfl⟩
    constructor
    · intro h
      exact Nat.le_zero.mp (h.2 hzero)
    · rintro rfl
      exact ⟨hzero, fun _ _ => Nat.zero_le _⟩
  simp [EndsAfter, hleast]

/-- A unit that closes nothing is passed, and the units behind it are read with the brackets that
are open then. -/
theorem endsAfter_cons_iff
    {depth' n : Nat} (hzero : ¬ ClosesFrom opener closer depth (u :: us) 0)
    (hsucc : ∀ i, ClosesFrom opener closer depth (u :: us) (i + 1) ↔
      ClosesFrom opener closer depth' us i) :
    EndsAfter opener closer depth (u :: us) n ↔
      ∃ m, EndsAfter opener closer depth' us m ∧ m + u.length = n := by
  have hlength : ∀ i, (us.take (i + 1)).flatten.length + u.length =
      ((u :: us).take (i + 1 + 1)).flatten.length := by
    intro i
    rw [List.take_succ_cons, List.flatten_cons, List.length_append, Nat.add_comm]
  constructor
  · rintro ⟨i, ⟨hcloses, hfirst⟩, rfl⟩
    cases i with
    | zero => exact absurd hcloses hzero
    | succ i =>
        refine ⟨_, ⟨i, ⟨(hsucc i).mp hcloses, ?_⟩, rfl⟩, ?_⟩
        · intro j hj
          exact Nat.le_of_succ_le_succ (hfirst ((hsucc j).mpr hj))
        · exact hlength i
  · rintro ⟨_, ⟨i, ⟨hcloses, hfirst⟩, rfl⟩, rfl⟩
    refine ⟨i + 1, ⟨(hsucc i).mpr hcloses, ?_⟩, hlength i⟩
    intro j hj
    cases j with
    | zero => exact absurd hj hzero
    | succ j => exact Nat.succ_le_succ (hfirst ((hsucc j).mp hj))

theorem endsAfter_plain_iff
    {n : Nat} (hopener : u ≠ [opener]) (hcloser : u ≠ [closer]) :
    EndsAfter opener closer depth (u :: us) n ↔
      ∃ m, EndsAfter opener closer depth us m ∧ m + u.length = n := by
  apply endsAfter_cons_iff
  · simp [closesFrom_zero_iff, hcloser]
  · intro i
    rw [closesFrom_succ_iff, if_neg hopener, if_neg hcloser]
    rfl

theorem endsAfter_open_iff {n : Nat} (hne : opener ≠ closer) :
    EndsAfter opener closer depth ([opener] :: us) n ↔
      ∃ m, EndsAfter opener closer (depth + 1) us m ∧ m + 1 = n := by
  apply endsAfter_cons_iff
  · simp [closesFrom_zero_iff, hne]
  · intro i
    rw [closesFrom_succ_iff, if_pos rfl, if_neg (by simpa using hne), Nat.add_zero, Nat.add_assoc,
      Nat.add_comm 1 depth]
    rfl

theorem endsAfter_close_iff {n : Nat} (hne : opener ≠ closer) :
    EndsAfter opener closer (depth + 1) ([closer] :: us) n ↔
      ∃ m, EndsAfter opener closer depth us m ∧ m + 1 = n := by
  apply endsAfter_cons_iff
  · simp [closesFrom_zero_iff]
  · intro i
    rw [closesFrom_succ_iff, if_neg (by simpa using hne.symm), if_pos rfl, Nat.add_zero,
      ← Nat.add_assoc, Nat.add_right_cancel_iff]
    rfl

end

section

variable {opener closer : Char} {depth : Nat}

/-- The search stops at the first unit that closes. -/
theorem delimitedFrom_eq_some_iff
    (hopener : opener ≠ '\\') (hcloser : closer ≠ '\\') (hdepth : opener = closer → depth = 0)
    {body : List Char} {n : Nat} :
    delimitedFrom opener closer depth body = some n ↔
      EndsAfter opener closer depth (units body) n := by
  induction body using units_induction generalizing depth n with
  | nil => simp [delimitedFrom, units, not_endsAfter_nil]
  | lone =>
      rw [units, endsAfter_plain_iff (by simpa using hopener.symm) (by simpa using hcloser.symm)]
      simp [delimitedFrom, not_endsAfter_nil]
  | escape d rest ih =>
      rw [delimitedFrom_escape, units_escape, endsAfter_plain_iff (by simp) (by simp),
        Option.map_eq_some_iff]
      simp only [ih hdepth, List.length_cons, List.length_nil]
  | single c cs hc ih =>
      rw [delimitedFrom_cons hc, units_cons hc]
      split_ifs with hclose hopen
      · subst hclose
        cases depth with
        | zero => simp [endsAfter_closer_iff, eq_comm]
        | succ depth =>
            -- A delimiter that closes itself is never counted as open.
            have hne : opener ≠ c := fun h => Nat.succ_ne_zero depth (hdepth h)
            rw [endsAfter_close_iff hne, Option.map_eq_some_iff]
            simp only [ih fun h => absurd h hne]
      · subst hopen
        rw [endsAfter_open_iff hclose, Option.map_eq_some_iff]
        simp only [ih fun h => absurd h hclose]
      · rw [endsAfter_plain_iff (by simpa using hopen) (by simpa using hclose),
          Option.map_eq_some_iff]
        simp only [ih hdepth, List.length_singleton]

end

/-- The unit at a position closes the body that `opener` opens: the closing bracket behind as many
opening as closing ones, or the delimiter itself. -/
inductive Closes (opener : Char) (us : List (List Char)) (i : Nat) : Prop
  | bracket {closer : Char} (hpair : closingBracket? opener = some closer)
      (hat : us[i]? = some [closer])
      (hlevel : (us.take i).count [opener] = (us.take i).count [closer]) : Closes opener us i
  | delimiter (hpair : closingBracket? opener = none) (hat : us[i]? = some [opener]) :
      Closes opener us i

section

variable {opener : Char} {body : List Char}

theorem closes_iff {us : List (List Char)} {i : Nat} :
    Closes opener us i ↔ ClosesFrom opener ((closingBracket? opener).getD opener) 0 us i := by
  cases hpair : closingBracket? opener with
  | some closer =>
      refine ⟨fun h => ?_, fun ⟨hat, hlevel⟩ => .bracket hpair hat hlevel⟩
      cases h with
      | bracket hpair' hat hlevel =>
          obtain rfl := Option.some.inj (hpair'.symm.trans hpair)
          exact ⟨hat, hlevel⟩
      | delimiter hnone => rw [hpair] at hnone; cases hnone
  | none =>
      refine ⟨fun h => ?_, fun ⟨hat, _⟩ => .delimiter hpair hat⟩
      cases h with
      | bracket hsome => rw [hpair] at hsome; cases hsome
      | delimiter _ hat => exact ⟨hat, rfl⟩

theorem closingBracket?_ne_backslash (h : opener ≠ '\\') :
    (closingBracket? opener).getD opener ≠ '\\' := by
  unfold closingBracket?
  split_ifs
  case neg => exact h
  all_goals
    rw [Option.getD_some]
    decide

theorem delimited_eq_some_iff (h : opener ≠ '\\') {n : Nat} :
    delimited opener body = some n ↔
      ∃ i, IsLeast {i | Closes opener (units body) i} i ∧
        n = ((units body).take (i + 1)).flatten.length := by
  simp only [closes_iff]
  exact delimitedFrom_eq_some_iff h (closingBracket?_ne_backslash h) fun _ => rfl

theorem delimited_eq_none_iff (h : opener ≠ '\\') :
    delimited opener body = none ↔ ∀ i, ¬ Closes opener (units body) i := by
  constructor
  · intro hnone i hi
    classical
    have hexists : ∃ j, Closes opener (units body) j := ⟨i, hi⟩
    have hsome := (delimited_eq_some_iff h).mpr ⟨_, Nat.isLeast_find hexists, rfl⟩
    rw [hnone] at hsome
    cases hsome
  · intro hnever
    rw [Option.eq_none_iff_forall_ne_some]
    intro n hsome
    obtain ⟨i, hi, -⟩ := (delimited_eq_some_iff h).mp hsome
    exact hnever i hi.1

end

/-! ## Progress -/

theorem delimitedFrom_bounds
    {opener closer : Char} {depth n : Nat} {body : List Char}
    (h : delimitedFrom opener closer depth body = some n) : 0 < n ∧ n ≤ body.length := by
  induction body using units_induction generalizing depth n with
  | nil => simp [delimitedFrom] at h
  | lone => simp [delimitedFrom] at h
  | escape d rest ih =>
      rw [delimitedFrom_escape, Option.map_eq_some_iff] at h
      obtain ⟨m, hm, rfl⟩ := h
      have hbounds := ih hm
      simp only [List.length_cons]
      omega
  | single c cs hc ih =>
      have hpassed : ∀ {depth' : Nat},
          (delimitedFrom opener closer depth' cs).map (· + 1) = some n →
            0 < n ∧ n ≤ (c :: cs).length := by
        intro depth' hmap
        obtain ⟨m, hm, rfl⟩ := Option.map_eq_some_iff.mp hmap
        have hbounds := ih hm
        simp only [List.length_cons]
        omega
      rw [delimitedFrom_cons hc] at h
      split_ifs at h with hclose hopen
      · cases depth with
        | zero =>
            obtain rfl := Option.some.inj h
            simp
        | succ depth => exact hpassed h
      · exact hpassed h
      · exact hpassed h

theorem secondPart_bounds
    {opener : Char} {rest : List Char} {n : Nat} (h : secondPart opener rest = some n) :
    0 < n ∧ n ≤ rest.length := by
  unfold secondPart at h
  split at h
  · exact delimitedFrom_bounds h
  · dsimp only at h
    cases hdrop : rest.drop (rest.takeWhile Text.isBlank).length with
    | nil => simp [hdrop] at h
    | cons second body =>
        rw [hdrop] at h
        obtain ⟨m, hm, rfl⟩ := Option.map_eq_some_iff.mp h
        have hbounds := delimitedFrom_bounds hm
        have hlength := congrArg List.length hdrop
        simp only [List.length_drop, List.length_cons] at hlength
        omega

/-- The length of a construct through its first part, which stands behind the blanks after the
operator. -/
def FirstPartEnds (cs : List Char) (n : Nat) : Prop :=
  ∃ opener body first, cs.drop (operatorGap cs) = opener :: body ∧
    delimited opener body = some first ∧ n = operatorGap cs + 1 + first

/-- A construct ends no earlier than its first part, and later if it has two. -/
theorem exists_firstPartEnds
    {twoParts : Bool} {cs : List Char} {n : Nat} (h : extent twoParts cs = some n) :
    n ≤ cs.length ∧ ∃ first, FirstPartEnds cs first ∧ 0 < first ∧ first ≤ n ∧
      (twoParts = true → first < n) := by
  rw [extent_eq] at h
  cases hdrop : cs.drop (operatorGap cs) with
  | nil => simp [hdrop] at h
  | cons opener body =>
      have hlength := congrArg List.length hdrop
      simp only [List.length_drop, List.length_cons] at hlength
      rw [hdrop] at h
      dsimp only at h
      split_ifs at h
      obtain ⟨parts, hparts, rfl⟩ := Option.map_eq_some_iff.mp h
      obtain ⟨first, hfirst, hrest⟩ := Option.bind_eq_some_iff.mp hparts
      obtain ⟨second, hsecond, rfl⟩ := Option.map_eq_some_iff.mp hrest
      have hbounds := delimitedFrom_bounds hfirst
      have hsecond_bounds : second ≤ body.length - first ∧ (twoParts = true → 0 < second) := by
        cases twoParts with
        | false =>
            obtain rfl : 0 = second := by simpa using hsecond
            simp
        | true =>
            obtain ⟨hpos, hle⟩ := secondPart_bounds hsecond
            exact ⟨List.length_drop ▸ hle, fun _ => hpos⟩
      have hmodifiers : ((body.drop (first + second)).takeWhile Char.isLower).length ≤
          body.length - (first + second) :=
        List.length_drop ▸ (List.takeWhile_prefix Char.isLower).length_le
      refine ⟨by omega, _, ⟨opener, body, first, hdrop, hfirst, rfl⟩, by omega, by omega, ?_⟩
      intro htwo
      have hpos := hsecond_bounds.2 htwo
      omega

/-! ## Offsets -/

/-- The byte offset behind the first characters of a text that stands behind `front`. -/
def offsetAfter (front body : List Char) (n : Nat) : Nat :=
  byteSize (front ++ body.take n)

theorem offsetAfter_zero (front body : List Char) : offsetAfter front body 0 = byteSize front := by
  simp [offsetAfter]

theorem offsetAfter_lt
    (front : List Char) {body : List Char} {m n : Nat} (hlt : m < n) (hle : n ≤ body.length) :
    offsetAfter front body m < offsetAfter front body n := by
  have hsplit : body.take n = body.take m ++ (body.drop m).take (n - m) := by
    rw [← List.take_add, Nat.add_sub_cancel' hlt.le]
  have hne : (body.drop m).take (n - m) ≠ [] := by
    simp only [ne_eq, List.take_eq_nil_iff, List.drop_eq_nil_iff]
    omega
  have hpos := Token.byteSize_pos hne
  simp only [offsetAfter, hsplit, Token.byteSize_append]
  omega

/-- An offset between characters of the source, behind another one. -/
def IsLaterBoundary (source : String) (start stop : Nat) : Prop :=
  String.Pos.Raw.IsValid source ⟨stop⟩ ∧ start < stop

theorem isLaterBoundary_offsetAfter
    {source : String} {front body : List Char} (hsource : source.toList = front ++ body)
    {n : Nat} (hpos : 0 < n) (hle : n ≤ body.length) :
    IsLaterBoundary source (byteSize front) (offsetAfter front body n) := by
  constructor
  · rw [String.Pos.Raw.isValid_iff_exists_append]
    refine ⟨String.ofList (front ++ body.take n), String.ofList (body.drop n), ?_, ?_⟩
    · rw [← String.toList_inj, hsource]
      simp
    · rw [String.Pos.Raw.ext_iff]
      exact (Token.utf8ByteSize_ofList _).symm
  · rw [← offsetAfter_zero front body]
    exact offsetAfter_lt front hpos hle

end MarkerDoc.Quoted
