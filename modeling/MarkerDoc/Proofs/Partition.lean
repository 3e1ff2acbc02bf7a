import MarkerDoc.Proofs.ByteOrder
import MarkerDoc.Proofs.Coverage
import MarkerDoc.Proofs.Scanner

/-!
# Elements divide the tokens

The scanner goes over the tokens once.  In every step it takes a run of tokens off the front and
makes an element of it, or passes a semicolon; behind a package declaration it also passes the
semicolon or the brace that ends it.  `taken_step` says once what a step can do.  From it follows,
by induction over the steps, that the elements cover runs of tokens that never overlap and leave
nothing out but those passed tokens, and that a comment is an element of its own or lies inside a
routine or another statement.
-/

namespace MarkerDoc

open Token

/-! ## Lines in bytes -/

/-- The number of bytes of a line feed among the bytes of the source before the offset. -/
def newlineBytesBefore (source : String) (offset : Nat) : Nat :=
  (source.toUTF8.data.toList.take offset).count 10

theorem count_newline_utf8EncodeChar (c : Char) :
    (String.utf8EncodeChar c).count 10 = if c = '\n' then 1 else 0 := by
  by_cases hc : c = '\n'
  · subst hc
    rfl
  · rw [if_neg hc, List.count_eq_zero, mem_utf8EncodeChar_iff (by decide)]
    exact fun heq => hc (Char.toNat_inj.mp heq)

theorem newlineBytesBefore_byteSize
    {source : String} {front rest : List Char} (h : source.toList = front ++ rest) :
    newlineBytesBefore source (byteSize front) = front.count '\n' := by
  rw [newlineBytesBefore, toList_data_toUTF8, h, List.flatMap_append,
    ← length_flatMap_utf8EncodeChar, List.take_left]
  clear h
  induction front with
  | nil => rfl
  | cons c front ih =>
      rw [List.flatMap_cons, List.count_append, ih, count_newline_utf8EncodeChar, List.count_cons,
        Nat.add_comm]
      simp

theorem newlineBytesBefore_mono (source : String) {m n : Nat} (h : m ≤ n) :
    newlineBytesBefore source m ≤ newlineBytesBefore source n := by
  unfold newlineBytesBefore
  have hprefix : source.toUTF8.data.toList.take m <+: source.toUTF8.data.toList.take n :=
    List.take_prefix_take_left h
  exact hprefix.sublist.count_le 10

/-- The name that an element takes from a token. -/
def Element.Kind.name? : Element.Kind → Option String
  | .package name | .routine name | .include name => some name
  | .attribute | .modifier | .comment _ | .other => none

namespace Scan

/-! ## How far a step reaches -/

theorem packageLength_le (ts : List Token) : packageLength ts ≤ ts.length := by
  fun_induction packageLength ts <;> simp_all

theorem isComment_of_mem_package
    {ts : List Token} {t : Token} (h : t ∈ ts.take (packageLength ts)) :
    t.kind.isComment = false := by
  fun_induction packageLength ts <;> simp_all
  rcases h with rfl | h <;> simp_all

theorem signatureLength_le (parens : Nat) (ts : List Token) :
    signatureLength parens ts ≤ ts.length := by
  fun_induction signatureLength parens ts <;> simp_all

theorem blockLengthFrom_le
    {depth : Nat} {ts : List Token} {n : Nat} (h : blockLengthFrom depth ts = some n) :
    n ≤ ts.length := by
  fun_induction blockLengthFrom depth ts generalizing n <;> simp_all
  all_goals
    obtain ⟨m, hm, rfl⟩ := h
    exact Nat.succ_le_succ (by grind)

theorem statementExtent_used_le (blockEnds : Bool) (depth : Nat) (ts : List Token) :
    (statementExtent blockEnds depth ts).used ≤ ts.length := by
  fun_induction statementExtent blockEnds depth ts <;> simp_all [Extent.succ]

/-- The name of an element is the word at the head of the tokens after its first, which is one of
the `n` tokens that belong to it. -/
def NamedBy (kind : Element.Kind) (ts : List Token) (n : Nat) : Prop :=
  ∀ name, kind.name? = some name →
    0 < n ∧ ∃ u, ts[0]? = some u ∧ u.kind = .bareWord ∧ u.text = name

/-- What a step can do with a token and the tokens after it: pass a semicolon, or make an element of
the first `n + 1` tokens.  The result gives the number of tokens used up after the first. -/
inductive Taken (source : String) (t : Token) (ts : List Token) : Option Element × Nat → Prop
  | semicolon (hkind : t.kind = .semicolon) : Taken source t ts (none, 0)
  | comment {marker : Marker} {text : String} (hkind : t.kind.isComment = true) :
      Taken source t ts (some (element source (.comment marker) text t ts 1), 0)
  | package {kind : Element.Kind} {text : String} {n used : Nat} (hkind : t.kind = .package)
      (hn : n ≤ ts.length) (hname : NamedBy kind ts n)
      (hcomments : ∀ u ∈ ts.take n, u.kind.isComment = false)
      (hused : used = n ∨
        used = n + 1 ∧ ∃ u, ts[n]? = some u ∧ (u.kind = .semicolon ∨ u.kind = .leftBrace)) :
      Taken source t ts (some (element source kind text t ts (n + 1)), used)
  | statement {kind : Element.Kind} {text : String} {n : Nat} (hkind : t.kind.isComment = false)
      (hpackage : t.kind ≠ .package) (hn : n ≤ ts.length) (hname : NamedBy kind ts n)
      (hstatement : kind.isStatement = true) :
      Taken source t ts (some (element source kind text t ts (n + 1)), n)

theorem namedBy_none {kind : Element.Kind} (h : kind.name? = none) (ts : List Token) (n : Nat) :
    NamedBy kind ts n := by
  intro name hname
  rw [h] at hname
  cases hname

theorem namedBy_word
    {kind : Element.Kind} {t : Token} (ht : t.kind = .bareWord) (hkind : kind.name? = some t.text)
    (ts : List Token) {n : Nat} (hn : 0 < n) : NamedBy kind (t :: ts) n := by
  intro name hname
  exact ⟨hn, t, rfl, ht, Option.some.inj (hkind.symm.trans hname)⟩

theorem namedBy_package (ts : List Token) :
    NamedBy
      (match ts with
        | t :: _ => if t.kind = .bareWord then .package t.text else .other
        | [] => .other)
      ts (packageLength ts) := by
  cases ts with
  | nil => exact namedBy_none rfl _ _
  | cons t ts =>
      dsimp only
      split_ifs with ht
      · apply namedBy_word ht rfl
        simp [packageLength, ht, Token.Kind.isComment]
      · exact namedBy_none rfl _ _

theorem namedBy_statement (t : Token) (ts : List Token) :
    NamedBy (statementKind t ts) ts ((statementExtent (endsWithBlock t) 0 (t :: ts)).used - 1) := by
  unfold statementKind
  split
  · next huse =>
      cases ts with
      | nil => exact namedBy_none rfl _ _
      | cons u us =>
          dsimp only
          split_ifs with hu
          · apply namedBy_word hu rfl
            simp [statementExtent, huse, hu, Extent.succ]
          · exact namedBy_none rfl _ _
  · split_ifs <;> exact namedBy_none rfl _ _
  · exact namedBy_none rfl _ _

theorem taken_package
    (source : String) {t : Token} (ts : List Token) (hkind : t.kind = .package) :
    Taken source t ts
      (some (packageElement source t ts).1, (packageElement source t ts).2) := by
  refine .package hkind (packageLength_le ts) (namedBy_package ts)
    (fun u => isComment_of_mem_package) ?_
  cases hnext : ts[packageLength ts]? with
  | none =>
      left
      simp [packageElement, List.head?_drop, hnext]
  | some u =>
      simp only [packageElement, List.head?_drop, hnext, Option.map_some]
      cases hu : u.kind <;> simp [hu]

theorem taken_statement
    (source : String) {t : Token} (ts : List Token) (hkind : t.kind.isComment = false)
    (hpackage : t.kind ≠ .package) :
    Taken source t ts
      (some (statementElement source t ts).1, (statementElement source t ts).2) := by
  have hused := statementExtent_used_le (endsWithBlock t) 0 (t :: ts)
  rw [List.length_cons] at hused
  have hlength : max (statementExtent (endsWithBlock t) 0 (t :: ts)).used 1 =
      max (statementExtent (endsWithBlock t) 0 (t :: ts)).used 1 - 1 + 1 := by omega
  unfold statementElement
  simp only
  rw [hlength]
  refine .statement hkind hpackage (by omega) ?_ (isStatement_statementKind t ts)
  intro name hname
  obtain ⟨hpos, hword⟩ := namedBy_statement t ts name hname
  exact ⟨by omega, hword⟩

theorem routineElement_used_le (source : String) (t name : Token) (ts : List Token) :
    (routineElement source t name ts).2 ≤ ts.length + 1 := by
  have hsignature := signatureLength_le 0 ts
  have hafter : (ts.drop (signatureLength 0 ts)).length = ts.length - signatureLength 0 ts :=
    List.length_drop
  simp only [routineElement]
  split
  · cases hblock : blockLength (ts.drop (signatureLength 0 ts)) with
    | none =>
        rw [Option.getD_none]
        omega
    | some n =>
        have hle := blockLengthFrom_le hblock
        rw [Option.getD_some]
        omega
  · next hsemicolon =>
      have hpos : 0 < (ts.drop (signatureLength 0 ts)).length := by
        rw [List.length_pos_iff]
        intro hnil
        simp [hnil] at hsemicolon
      omega
  · omega

theorem routineElement_used_pos (source : String) (t name : Token) (ts : List Token) :
    0 < (routineElement source t name ts).2 := by
  simp only [routineElement]
  omega

theorem taken_routine
    (source : String) {t name : Token} (ts : List Token) (hkind : t.kind = .sub)
    (hname : name.kind = .bareWord) :
    Taken source t (name :: ts)
      (some (routineElement source t name ts).1, (routineElement source t name ts).2) :=
  .statement (by rw [hkind]; rfl) (by simp [hkind]) (routineElement_used_le source t name ts)
    (namedBy_word hname rfl ts (routineElement_used_pos source t name ts)) rfl

theorem taken_step (source : String) (t : Token) (ts : List Token) :
    Taken source t ts (step source t ts) := by
  cases hkind : t.kind with
  | packageDoc | itemDoc | comment =>
      simp only [step, hkind]
      exact .comment (by rw [hkind]; rfl)
  | semicolon =>
      simp only [step, hkind]
      exact .semicolon hkind
  | rightBrace =>
      simp only [step, hkind]
      exact .statement (by rw [hkind]; rfl) (by simp [hkind]) (Nat.zero_le _)
        (namedBy_none rfl _ _) rfl
  | package =>
      simp only [step, hkind]
      exact taken_package source ts hkind
  | sub =>
      have hstatement := taken_statement source ts (by rw [hkind]; rfl) (by simp [hkind])
      simp only [step, hkind]
      split
      · next name rest =>
          split
          · next hname => exact taken_routine source rest hkind hname
          · exact hstatement
      · exact hstatement
  | use | bareWord | variableName | string | number | leftBrace | punctuation =>
      simp only [step, hkind]
      exact taken_statement source ts (by rw [hkind]; rfl) (by simp [hkind])

/-! ## Runs of tokens -/

/-- The tokens at the positions from `first` on and before `stop`. -/
structure Run where
  first : Nat
  stop : Nat

def Run.Holds (run : Run) (k : Nat) : Prop :=
  run.first ≤ k ∧ k < run.stop

/-- The positions that are looked up for an element made of the run: its first token, the one behind
that if it names the element, and its last. -/
def Run.lookups (run : Run) (kind : Element.Kind) : List Nat :=
  run.first :: (kind.name?.map fun _ => run.first + 1).toList ++ [run.stop - 1]

/-- Tokens that are not empty, in the order of their places. -/
structure InOrder (ts : List Token) : Prop where
  nonempty : ∀ t ∈ ts, t.start < t.stop
  ordered : ts.Pairwise fun t u => t.stop ≤ u.start

theorem InOrder.stop_le
    {ts : List Token} (h : InOrder ts) {i j : Nat} (hij : i < j) {t u : Token}
    (ht : ts[i]? = some t) (hu : ts[j]? = some u) : t.stop ≤ u.start := by
  obtain ⟨hi, rfl⟩ := List.getElem?_eq_some_iff.mp ht
  obtain ⟨hj, rfl⟩ := List.getElem?_eq_some_iff.mp hu
  exact List.pairwise_iff_getElem.mp h.ordered i j hi hj hij

theorem InOrder.start_le
    {ts : List Token} (h : InOrder ts) {i j : Nat} (hij : i ≤ j) {t u : Token}
    (ht : ts[i]? = some t) (hu : ts[j]? = some u) : t.start ≤ u.start ∧ t.stop ≤ u.stop := by
  rcases Nat.eq_or_lt_of_le hij with rfl | hij
  · obtain rfl : t = u := Option.some.inj (ht.symm.trans hu)
    exact ⟨le_rfl, le_rfl⟩
  · have hle := h.stop_le hij ht hu
    have ht' := h.nonempty t (List.mem_of_getElem? ht)
    have hu' := h.nonempty u (List.mem_of_getElem? hu)
    omega

theorem inOrder_lex (source : String) : InOrder (lex source) :=
  ⟨fun _ => start_lt_stop_of_mem_lex, (layout_lex source).pairwise⟩

/-- An element made of a run of tokens. -/
structure Covers (source : String) (ts : List Token) (run : Run) (e : Element) : Prop where
  nonempty : run.first < run.stop
  inside : run.stop ≤ ts.length
  /-- The span goes from the start of the first token to the end of the last one. -/
  span : ∃ t u, ts[run.first]? = some t ∧ ts[run.stop - 1]? = some u ∧ e.span = ⟨t.start, u.stop⟩
  line : e.line = 1 + newlineBytesBefore source e.span.start
  /-- A name is the word behind the first token, and belongs to the run. -/
  named : ∀ name, e.kind.name? = some name →
    run.first + 1 < run.stop ∧ ∃ u, ts[run.first + 1]? = some u ∧ u.kind = .bareWord ∧ u.text = name
  /-- A comment makes up a comment element alone, or lies inside a routine or another statement. -/
  comments : ∀ k t, run.Holds k → ts[k]? = some t → t.kind.isComment = true →
    (∃ marker, e.kind = .comment marker) ∧ run.stop = run.first + 1 ∨
      e.kind.isStatement = true ∧ (ts[run.first]?).map (·.kind) ≠ some .package

/-- No look-up leaves the list of tokens. -/
theorem Covers.lt_length_of_mem_lookups
    {source : String} {ts : List Token} {run : Run} {e : Element} (h : Covers source ts run e)
    {k : Nat} (hk : k ∈ run.lookups e.kind) : k < ts.length := by
  have hnonempty := h.nonempty
  have hinside := h.inside
  rw [Run.lookups, List.cons_append, List.mem_cons, List.mem_append, Option.mem_toList,
    Option.map_eq_some_iff, List.mem_singleton] at hk
  rcases hk with rfl | ⟨name, hname, rfl⟩ | rfl
  · omega
  · have hstop := (h.named name hname).1
    omega
  · omega

/-- A token that no element needs to cover: a semicolon, or the brace directly behind a package
declaration. -/
def MayBePassed (ts : List Token) (runs : List Run) (k : Nat) (t : Token) : Prop :=
  t.kind = .semicolon ∨
    t.kind = .leftBrace ∧
      ∃ run ∈ runs, run.stop = k ∧ (ts[run.first]?).map (·.kind) = some .package

/-- The comment at a position makes up a comment element alone, or lies inside the span of a routine
or another statement. -/
def CommentPlaced (runs : List Run) (es : List Element) (k : Nat) (t : Token) : Prop :=
  ∃ (i : Nat) (run : Run) (e : Element), runs[i]? = some run ∧ es[i]? = some e ∧
    ((∃ marker, e.kind = .comment marker) ∧ run = ⟨k, k + 1⟩ ∨
      e.kind.isStatement = true ∧ run.Holds k ∧ e.span.start ≤ t.start ∧ t.stop ≤ e.span.stop)

/-- The elements of the tokens from a position on, with the runs that they are made of. -/
structure Partition (source : String) (ts : List Token) (start : Nat) (runs : List Run)
    (es : List Element) : Prop where
  covers : List.Forall₂ (Covers source ts) runs es
  ordered : runs.Pairwise fun a b => a.stop ≤ b.first
  start_le : ∀ run ∈ runs, start ≤ run.first
  all : ∀ k t, start ≤ k → ts[k]? = some t →
    (∃ run ∈ runs, run.Holds k) ∨ MayBePassed ts runs k t

theorem lineAt_eq_newlineBytesBefore
    {source : String} {t : Token} (h : t.StandsIn source) :
    lineAt source t.start = 1 + newlineBytesBefore source t.start := by
  obtain ⟨before, after, rfl, hstart⟩ := h
  have hsplit : (before ++ t.text ++ after).toList =
      before.toList ++ (t.text ++ after).toList := by
    simp
  rw [← hstart, ← byteSize_toList, lineAt_byteSize hsplit, newlineBytesBefore_byteSize hsplit]

/-- The last token of a run that begins with `t`. -/
theorem getElem?_last (t : Token) {ts : List Token} {n : Nat} (hn : n ≤ ts.length) :
    (t :: ts)[n]? = some (((ts.take n).getLast?).getD t) := by
  cases n with
  | zero => simp
  | succ n =>
      have hlt : n < ts.length := hn
      simp [List.getLast?_take, List.getElem?_eq_getElem hlt]

section

variable {source : String} {front ts : List Token} {t : Token} {n : Nat}

theorem getElem?_lex_add (hwhole : lex source = front ++ t :: ts) (k : Nat) :
    (lex source)[front.length + k]? = (t :: ts)[k]? := by
  rw [hwhole, List.getElem?_append_right (Nat.le_add_right _ _), Nat.add_sub_cancel_left]

/-- The element of the first tokens of what is left covers the run of their positions. -/
theorem covers_element
    (hwhole : lex source = front ++ t :: ts) (hn : n ≤ ts.length) {kind : Element.Kind}
    (text : String) (hname : NamedBy kind ts n)
    (hcomments : ∀ u ∈ t :: ts.take n, u.kind.isComment = true →
      (∃ marker, kind = .comment marker) ∧ n = 0 ∨
        kind.isStatement = true ∧ t.kind ≠ .package) :
    Covers source (lex source) ⟨front.length, front.length + (n + 1)⟩
      (element source kind text t ts (n + 1)) := by
  have hfirst : (lex source)[front.length]? = some t := getElem?_lex_add hwhole 0
  have hlast : (lex source)[front.length + (n + 1) - 1]? =
      some (((ts.take n).getLast?).getD t) := by
    rw [Nat.add_succ_sub_one, getElem?_lex_add hwhole]
    exact getElem?_last t hn
  have horder := (inOrder_lex source).start_le (Nat.le_add_right front.length n) hfirst hlast
  have hspan : (element source kind text t ts (n + 1)).span =
      ⟨t.start, (((ts.take n).getLast?).getD t).stop⟩ := by
    simp only [element, Nat.add_sub_cancel, Span.merge, Token.span]
    rw [Nat.min_eq_left horder.1, Nat.max_eq_right horder.2]
  have hstands : t.StandsIn source := standsIn_of_mem_lex (by simp [hwhole])
  constructor
  · simp
  · simp only [hwhole, List.length_append, List.length_cons]
    omega
  · exact ⟨t, _, hfirst, hlast, hspan⟩
  · rw [hspan]
    exact lineAt_eq_newlineBytesBefore hstands
  · intro name hkind
    obtain ⟨hpos, u, hu, hword⟩ := hname name hkind
    exact ⟨by simp only; omega, u, (getElem?_lex_add hwhole 1).trans hu, hword⟩
  · intro k u hk hu hcomment
    have hmem : u ∈ t :: ts.take n := by
      obtain ⟨i, rfl⟩ := Nat.exists_eq_add_of_le hk.1
      rw [getElem?_lex_add hwhole] at hu
      have htake : (t :: ts.take n)[i]? = some u := by
        rw [← List.take_succ_cons, List.getElem?_take, if_pos (Nat.add_lt_add_iff_left.mp hk.2)]
        exact hu
      exact List.mem_of_getElem? htake
    simp only [hfirst, Option.map_some, ne_eq, Option.some.injEq]
    rcases hcomments u hmem hcomment with ⟨hkind, rfl⟩ | hstatement
    · exact .inl ⟨hkind, rfl⟩
    · exact .inr hstatement

/-- A passed semicolon leaves the runs of the tokens behind it as they are. -/
theorem Partition.pass
    {start : Nat} {runs : List Run} {es : List Element}
    (h : Partition source (lex source) (start + 1) runs es)
    (hsemicolon : ∀ u, (lex source)[start]? = some u → u.kind = .semicolon) :
    Partition source (lex source) start runs es := by
  refine ⟨h.covers, h.ordered, fun run hrun => Nat.le_of_lt (h.start_le run hrun), ?_⟩
  intro k u hk hu
  rcases Nat.eq_or_lt_of_le hk with rfl | hk
  · exact .inr (.inl (hsemicolon u hu))
  · exact h.all k u hk hu

/-- An element puts its run in front, and a package declaration may pass one token behind it. -/
theorem Partition.cons
    {run : Run} {e : Element} {runs : List Run} {es : List Element} {next : Nat}
    (hcovers : Covers source (lex source) run e)
    (hnext : next = run.stop ∨ next = run.stop + 1 ∧
      ((lex source)[run.first]?).map (·.kind) = some .package ∧
      ∀ u, (lex source)[run.stop]? = some u → u.kind = .semicolon ∨ u.kind = .leftBrace)
    (h : Partition source (lex source) next runs es) :
    Partition source (lex source) run.first (run :: runs) (e :: es) := by
  have hle : run.stop ≤ next := by
    rcases hnext with rfl | ⟨rfl, -⟩ <;> omega
  constructor
  · exact .cons hcovers h.covers
  · exact List.pairwise_cons.mpr ⟨fun b hb => hle.trans (h.start_le b hb), h.ordered⟩
  · rintro b (_ | ⟨_, hb⟩)
    · exact le_rfl
    · exact (hcovers.nonempty.le.trans hle).trans (h.start_le b hb)
  · intro k u hk hu
    by_cases hstop : k < run.stop
    · exact .inl ⟨run, List.mem_cons_self, hk, hstop⟩
    by_cases hpassed : k < next
    · right
      obtain ⟨rfl, hpackage, hkind⟩ := hnext.resolve_left (by omega)
      obtain rfl : k = run.stop := by omega
      exact (hkind u hu).imp_right fun hbrace => ⟨hbrace, run, List.mem_cons_self, rfl, hpackage⟩
    · rcases h.all k u (by omega) hu with ⟨b, hb, hholds⟩ | hsemicolon | ⟨hbrace, b, hb, hrest⟩
      · exact .inl ⟨b, List.mem_cons_of_mem _ hb, hholds⟩
      · exact .inr (.inl hsemicolon)
      · exact .inr (.inr ⟨hbrace, b, List.mem_cons_of_mem _ hb, hrest⟩)

/-- The run of one step in front of the runs of all later steps. -/
theorem Partition.of_taken
    {found : Option Element} {used : Nat} {runs : List Run} {es : List Element}
    (hwhole : lex source = front ++ t :: ts) (htaken : Taken source t ts (found, used))
    (h : Partition source (lex source) (front.length + (used + 1)) runs es) :
    ∃ runs', Partition source (lex source) front.length runs' (found.toList ++ es) := by
  have hfirst : (lex source)[front.length]? = some t := getElem?_lex_add hwhole 0
  cases htaken with
  | semicolon hkind =>
      refine ⟨runs, h.pass fun u hu => ?_⟩
      rw [hfirst, Option.some.injEq] at hu
      exact hu ▸ hkind
  | comment hkind =>
      refine ⟨_, .cons (covers_element hwhole (Nat.zero_le _) _ (namedBy_none rfl _ _) ?_)
        (.inl rfl) h⟩
      exact fun u _ _ => .inl ⟨⟨_, rfl⟩, rfl⟩
  | @package kind text n used hkind hn hname hcomments hused =>
      refine ⟨_, .cons (covers_element hwhole hn _ hname ?_) ?_ h⟩
      · rintro u (_ | ⟨_, hu⟩) hcomment
        · rw [hkind] at hcomment
          cases hcomment
        · exact absurd ((hcomments u hu).symm.trans hcomment) Bool.false_ne_true
      · rcases hused with rfl | ⟨rfl, u, hu, hclosing⟩
        · exact .inl rfl
        · refine .inr ⟨rfl, by simp [hfirst, hkind], fun v hv => ?_⟩
          have hat : (lex source)[front.length + (n + 1)]? = some u :=
            (getElem?_lex_add hwhole (n + 1)).trans hu
          obtain rfl : u = v := Option.some.inj (hat.symm.trans hv)
          exact hclosing
  | statement hkind hpackage hn hname hstatement =>
      refine ⟨_, .cons (covers_element hwhole hn _ hname ?_) (.inl rfl) h⟩
      exact fun u _ _ => .inr ⟨hstatement, hpackage⟩

end

/-- The number of tokens that a step uses up never exceeds those that are left. -/
theorem Taken.used_le
    {source : String} {t : Token} {ts : List Token} {found : Option Element} {used : Nat}
    (h : Taken source t ts (found, used)) : used ≤ ts.length := by
  cases h with
  | semicolon => exact Nat.zero_le _
  | comment => exact Nat.zero_le _
  | package hkind hn hname hcomments hused =>
      rcases hused with rfl | ⟨rfl, u, hu, -⟩
      · exact hn
      · exact (List.getElem?_eq_some_iff.mp hu).1
  | statement hkind hpackage hn hname hstatement => exact hn

theorem exists_partition
    {source : String} {front ts : List Token} (hwhole : lex source = front ++ ts) :
    ∃ runs, Partition source (lex source) front.length runs (elements source ts) := by
  induction ts using elements_induction source generalizing front with
  | nil =>
      refine ⟨[], ?_⟩
      rw [elements_nil]
      refine ⟨.nil, .nil, by simp, fun k t hk ht => ?_⟩
      have hlt := (List.getElem?_eq_some_iff.mp ht).1
      simp only [hwhole, List.append_nil] at hlt
      omega
  | cons t ts ih =>
      have htaken := taken_step source t ts
      have hle : (step source t ts).2 ≤ ts.length := htaken.used_le
      have hsplit : lex source =
          (front ++ t :: ts.take (step source t ts).2) ++ ts.drop (step source t ts).2 := by
        simp [hwhole]
      have hfront : (front ++ t :: ts.take (step source t ts).2).length =
          front.length + ((step source t ts).2 + 1) := by
        simp [hle]
      obtain ⟨runs, hruns⟩ := ih hsplit
      rw [hfront] at hruns
      rw [elements_cons]
      exact Partition.of_taken hwhole htaken hruns

/-! ## The elements of a source -/

section

variable {source : String} {a b : Run} {e f : Element} {runs : List Run} {es : List Element}

theorem Covers.span_encloses
    (h : Covers source (lex source) a e) {k : Nat} {t : Token} (hk : a.Holds k)
    (ht : (lex source)[k]? = some t) : e.span.start ≤ t.start ∧ t.stop ≤ e.span.stop := by
  obtain ⟨first, last, hfirst, hlast, hspan⟩ := h.span
  obtain ⟨hle, hlt⟩ := hk
  rw [hspan]
  exact ⟨((inOrder_lex source).start_le hle hfirst ht).1,
    ((inOrder_lex source).start_le (by omega) ht hlast).2⟩

theorem Covers.span_lt (h : Covers source (lex source) a e) : e.span.start < e.span.stop := by
  obtain ⟨first, last, hfirst, -⟩ := h.span
  have hencloses := h.span_encloses ⟨le_rfl, h.nonempty⟩ hfirst
  have hnonempty := (inOrder_lex source).nonempty first (List.mem_of_getElem? hfirst)
  omega

/-- Elements stand in the order of their runs. -/
theorem Covers.before
    (he : Covers source (lex source) a e) (hf : Covers source (lex source) b f)
    (hab : a.stop ≤ b.first) : e.span.stop ≤ f.span.start ∧ e.line ≤ f.line := by
  have hspan : e.span.stop ≤ f.span.start := by
    obtain ⟨_, last, -, hlast, hspan⟩ := he.span
    obtain ⟨first, _, hfirst, -, hspan'⟩ := hf.span
    rw [hspan, hspan']
    have hpos := he.nonempty
    exact (inOrder_lex source).stop_le (by omega) hlast hfirst
  refine ⟨hspan, ?_⟩
  rw [he.line, hf.line]
  have hlt := he.span_lt
  exact Nat.add_le_add_left (newlineBytesBefore_mono source (by omega)) 1

theorem exists_run_of_mem
    (h : List.Forall₂ (Covers source (lex source)) runs es) (he : e ∈ es) :
    ∃ run ∈ runs, Covers source (lex source) run e := by
  induction h with
  | nil => simp at he
  | @cons run e' runs es hcovers _ ih =>
      rcases List.mem_cons.mp he with rfl | he
      · exact ⟨run, List.mem_cons_self, hcovers⟩
      · obtain ⟨run', hrun', hcovers'⟩ := ih he
        exact ⟨run', List.mem_cons_of_mem _ hrun', hcovers'⟩

theorem pairwise_elements
    (h : List.Forall₂ (Covers source (lex source)) runs es)
    (hruns : runs.Pairwise fun a b => a.stop ≤ b.first) :
    es.Pairwise fun e f => e.span.stop ≤ f.span.start ∧ e.line ≤ f.line := by
  induction h with
  | nil => exact .nil
  | cons hcovers hrest ih =>
      obtain ⟨hfirst, hruns⟩ := List.pairwise_cons.mp hruns
      refine List.pairwise_cons.mpr ⟨fun f hf => ?_, ih hruns⟩
      obtain ⟨b, hb, hcovers'⟩ := exists_run_of_mem hrest hf
      exact hcovers.before hcovers' (hfirst b hb)

theorem existsUnique_run
    (hruns : runs.Pairwise fun a b => a.stop ≤ b.first) {k : Nat} (ha : a ∈ runs)
    (hholds : a.Holds k) : ∃! i : Nat, ∃ run : Run, runs[i]? = some run ∧ run.Holds k := by
  obtain ⟨i, hi⟩ := List.mem_iff_getElem?.mp ha
  have hapart : ∀ (i j : Nat) (a b : Run), i < j → runs[i]? = some a → runs[j]? = some b →
      a.Holds k → ¬ b.Holds k := by
    rintro i j a b hij hi hj ⟨-, hlt⟩ ⟨hle, -⟩
    obtain ⟨hi', rfl⟩ := List.getElem?_eq_some_iff.mp hi
    obtain ⟨hj', rfl⟩ := List.getElem?_eq_some_iff.mp hj
    have hstop := List.pairwise_iff_getElem.mp hruns i j hi' hj' hij
    omega
  refine ⟨i, ⟨a, hi, hholds⟩, ?_⟩
  rintro j ⟨b, hj, hholds'⟩
  rcases Nat.lt_trichotomy i j with hij | rfl | hij
  · exact absurd hholds' (hapart i j a b hij hi hj hholds)
  · rfl
  · exact absurd hholds (hapart j i b a hij hj hi hholds')

/-- A comment is never passed, so it lies in the run of an element. -/
theorem Partition.commentPlaced
    (h : Partition source (lex source) 0 runs es) {k : Nat} {t : Token}
    (ht : (lex source)[k]? = some t) (hcomment : t.kind.isComment = true) :
    CommentPlaced runs es k t := by
  rcases h.all k t (Nat.zero_le k) ht with ⟨run, hrun, hholds⟩ | hsemicolon | ⟨hbrace, -⟩
  · obtain ⟨i, hi⟩ := List.mem_iff_getElem?.mp hrun
    obtain ⟨hi', rfl⟩ := List.getElem?_eq_some_iff.mp hi
    obtain ⟨hlength, hget⟩ := List.forall₂_iff_get.mp h.covers
    have hcovers : Covers source (lex source) runs[i] (es[i]) := hget i hi' (hlength ▸ hi')
    refine ⟨i, runs[i], es[i], hi, List.getElem?_eq_getElem _, ?_⟩
    rcases hcovers.comments k t hholds ht hcomment with ⟨hkind, hstop⟩ | ⟨hkind, -⟩
    · refine .inl ⟨hkind, ?_⟩
      obtain ⟨hle, hlt⟩ := hholds
      have hfirst : runs[i].first = k := by omega
      rw [← hfirst, ← hstop]
    · exact .inr ⟨hkind, hholds, hcovers.span_encloses hholds ht⟩
  · simp [hsemicolon, Token.Kind.isComment] at hcomment
  · simp [hbrace, Token.Kind.isComment] at hcomment

end

/-- The elements of a source are made of runs of its tokens, one run each, in order and without
overlap, and no look-up for them leaves the list.  Every token lies in exactly one run or is one of
those that may be passed, every comment has its place, and spans and lines are those of the runs. -/
theorem scan_partitions_tokens (source : String) :
    ∃ runs : List Run,
      List.Forall₂ (Covers source (lex source)) runs (Element.scan source) ∧
      List.Forall₂ (fun run e => ∀ k ∈ run.lookups e.kind, k < (lex source).length) runs
        (Element.scan source) ∧
      runs.Pairwise (fun a b => a.stop ≤ b.first) ∧
      (∀ k t, (lex source)[k]? = some t →
        (∃! i : Nat, ∃ run : Run, runs[i]? = some run ∧ run.Holds k) ∨
          MayBePassed (lex source) runs k t) ∧
      (∀ k t, (lex source)[k]? = some t → t.kind.isComment = true →
        CommentPlaced runs (Element.scan source) k t) ∧
      (∀ e ∈ Element.scan source, e.span.start < e.span.stop ∧
        e.line = 1 + newlineBytesBefore source e.span.start) ∧
      (Element.scan source).Pairwise
        (fun e f => e.span.stop ≤ f.span.start ∧ e.line ≤ f.line) := by
  obtain ⟨runs, hruns⟩ := exists_partition (List.nil_append (lex source)).symm
  change Partition source (lex source) 0 runs (Element.scan source) at hruns
  refine ⟨runs, hruns.covers,
    hruns.covers.imp fun _ _ hcovers _ => hcovers.lt_length_of_mem_lookups,
    hruns.ordered, ?_, ?_, ?_, pairwise_elements hruns.covers hruns.ordered⟩
  · intro k t ht
    refine (hruns.all k t (Nat.zero_le k) ht).imp_left ?_
    rintro ⟨run, hrun, hholds⟩
    exact existsUnique_run hruns.ordered hrun hholds
  · intro k t ht hcomment
    exact hruns.commentPlaced ht hcomment
  · intro e he
    obtain ⟨run, -, hcovers⟩ := exists_run_of_mem hruns.covers he
    exact ⟨hcovers.span_lt, hcovers.line⟩

end Scan

end MarkerDoc
