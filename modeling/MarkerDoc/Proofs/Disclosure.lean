import MarkerDoc.Proofs.Extract
import MarkerDoc.Proofs.Restatement

/-!
# Hidden text does not leak

Extraction reads the kinds and the lines of all elements, but the text of few.  Which ones is said
here by positions: the first package with its block, and every selected declaration with its block,
less what stands behind a directive that leaves them out.  Two streams that agree in kinds and lines
and in the text at these positions give the same module, the same reason for leaving it out, or the
same error; all other text can be changed without any effect.
-/

namespace MarkerDoc

/-- Two elements that differ at most in their texts and spans. -/
structure Element.Alike (e e' : Element) : Prop where
  kind : e'.kind = e.kind
  line : e'.line = e.line

theorem Element.Alike.symm {e e' : Element} (h : e.Alike e') : e'.Alike e :=
  ⟨h.kind.symm, h.line.symm⟩

namespace Extract

/-! ## Positions whose text counts -/

def IsCommentAt (es : List Element) (marker : Marker) (j : Nat) : Prop :=
  ∃ e, es[j]? = some e ∧ e.marker? = some marker

/-- The position lies in the run of package comments directly after position `i`. -/
def InPackageRun (es : List Element) (i j : Nat) : Prop :=
  i < j ∧ ∀ k, i < k → k ≤ j → IsCommentAt es .packageDoc k

/-- The position lies in the run of item comments directly before position `i`. -/
def InItemRun (es : List Element) (i j : Nat) : Prop :=
  j < i ∧ ∀ k, j ≤ k → k < i → IsCommentAt es .itemDoc k

/-- The text of the line at a position behind its marker. -/
def strippedAt? (es : List Element) (marker : Marker) (j : Nat) : Option String :=
  (es[j]?).bind fun e => DocBlock.stripMarker? e.text marker

section

variable (es : List Element) (marker : Marker) (run : Nat → Prop)

/-- No line of the run in front of the position carries the marker.  In a run whose lines all carry
it, this is so at the first line only. -/
def NoLineBefore (j : Nat) : Prop :=
  ∀ k < j, run k → strippedAt? es marker k = none

/-- The first line of the run is the directive that leaves an item out. -/
def OpensIgnored : Prop :=
  ∃ j text, run j ∧ NoLineBefore es marker run j ∧ strippedAt? es marker j = some text ∧
    Text.trimEnd text = DocBlock.ignoreDirective

/-- The lines of the run whose text counts: all of them, or the first one if that is the
directive. -/
def Decides (j : Nat) : Prop :=
  run j ∧ (OpensIgnored es marker run → NoLineBefore es marker run j)

end

/-- The block of the first package leaves the whole module out. -/
def PackageIgnored (es : List Element) : Prop :=
  ∃ i p, FirstPackage es i p ∧ OpensIgnored es .packageDoc (InPackageRun es i)

/-- The positions whose text extraction may depend on. -/
inductive Relevant (extensions : List String) (es : List Element) : Nat → Prop
  | packageLine {i j : Nat} {p : Element} (hpackage : FirstPackage es i p)
      (hline : Decides es .packageDoc (InPackageRun es i) j) : Relevant extensions es j
  | package {i : Nat} {p : Element} (hpackage : FirstPackage es i p)
      (hread : ¬ PackageIgnored es) : Relevant extensions es i
  | itemLine {i j : Nat} {e : Element} {kind : Option String → Item.Kind}
      (hread : ¬ PackageIgnored es) (hat : es[i]? = some e)
      (hselected : Selected extensions es e kind)
      (hline : Decides es .itemDoc (InItemRun es i) j) : Relevant extensions es j
  | item {i : Nat} {e : Element} {kind : Option String → Item.Kind}
      (hread : ¬ PackageIgnored es) (hat : es[i]? = some e)
      (hselected : Selected extensions es e kind)
      (hread' : ¬ OpensIgnored es .itemDoc (InItemRun es i)) : Relevant extensions es i

/-! ## Blocks as runs of positions -/

theorem lt_length_takeWhile_iff {α : Type} (p : α → Bool) (xs : List α) (n : Nat) :
    n < (xs.takeWhile p).length ↔ ∀ k ≤ n, ∃ x, xs[k]? = some x ∧ p x = true := by
  induction xs generalizing n with
  | nil =>
      simp only [List.takeWhile_nil, List.length_nil, Nat.not_lt_zero, false_iff]
      intro h
      obtain ⟨x, hx, -⟩ := h n le_rfl
      simp at hx
  | cons x xs ih =>
      cases hx : p x with
      | false =>
          simp only [List.takeWhile_cons, hx, Bool.false_eq_true, if_false, List.length_nil,
            Nat.not_lt_zero, false_iff]
          intro h
          obtain ⟨y, hy, hpy⟩ := h 0 (Nat.zero_le n)
          obtain rfl : x = y := by simpa using hy
          simp [hx] at hpy
      | true =>
          simp only [List.takeWhile_cons, hx, if_true, List.length_cons]
          cases n with
          | zero =>
              simp only [Nat.zero_lt_succ, Nat.le_zero, forall_eq, true_iff]
              exact ⟨x, rfl, hx⟩
          | succ n =>
              rw [Nat.succ_lt_succ_iff, ih]
              constructor
              · intro h k hk
                cases k with
                | zero => exact ⟨x, rfl, hx⟩
                | succ k => exact h k (by omega)
              · intro h k hk
                exact h (k + 1) (by omega)

/-- A stretch of comments with one marker inside a stream. -/
structure Stretch (es : List Element) (marker : Marker) (run : Nat → Prop)
    (front lines rest : List Element) : Prop where
  whole : es = front ++ (lines ++ rest)
  marked : ∀ e ∈ lines, e.marker? = some marker
  positions : ∀ j, run j ↔ front.length ≤ j ∧ j < front.length + lines.length

theorem stretch_packageRun {es : List Element} {i : Nat} (hi : i < es.length) :
    Stretch es .packageDoc (InPackageRun es i) (es.take (i + 1))
      ((es.drop (i + 1)).takeWhile (·.marker? == some .packageDoc))
      ((es.drop (i + 1)).dropWhile (·.marker? == some .packageDoc)) := by
  have hlength : (es.take (i + 1)).length = i + 1 := List.length_take_of_le hi
  constructor
  · rw [List.takeWhile_append_dropWhile, List.take_append_drop]
  · intro e he
    simpa using List.mem_takeWhile_imp he
  · intro j
    rw [hlength]
    constructor
    · rintro ⟨hlt, hrun⟩
      obtain ⟨n, rfl⟩ := Nat.exists_eq_add_of_le (Nat.succ_le_of_lt hlt)
      refine ⟨by omega, Nat.add_lt_add_left ?_ _⟩
      rw [lt_length_takeWhile_iff]
      intro k hk
      obtain ⟨e, he, hmarker⟩ := hrun (i + 1 + k) (by omega) (by omega)
      exact ⟨e, by rwa [List.getElem?_drop], by simpa using hmarker⟩
    · rintro ⟨hle, hlt⟩
      obtain ⟨n, rfl⟩ := Nat.exists_eq_add_of_le hle
      refine ⟨by omega, ?_⟩
      intro k hk hkj
      obtain ⟨m, rfl⟩ := Nat.exists_eq_add_of_le (Nat.succ_le_of_lt hk)
      have hlines := (lt_length_takeWhile_iff _ _ n).mp (Nat.lt_of_add_lt_add_left hlt)
      obtain ⟨e, he, hmarker⟩ := hlines m (by omega)
      exact ⟨e, by rwa [List.getElem?_drop] at he, by simpa using hmarker⟩

theorem stretch_itemRun {es : List Element} {i : Nat} (hi : i < es.length) :
    Stretch es .itemDoc (InItemRun es i)
      ((es.take i).rdropWhile (·.marker? == some .itemDoc))
      ((es.take i).rtakeWhile (·.marker? == some .itemDoc)) (es.drop i) := by
  have htake : (es.take i).length = i := List.length_take_of_le hi.le
  have hsplit : (es.take i).rdropWhile (·.marker? == some .itemDoc) ++
      (es.take i).rtakeWhile (·.marker? == some .itemDoc) = es.take i :=
    List.rdropWhile_append_rtakeWhile
  have hlength := congrArg List.length hsplit
  rw [List.length_append, htake] at hlength
  -- Counted from the declaration backwards, the run is a front of the elements before it.
  have hback : ∀ n, n < ((es.take i).rtakeWhile (·.marker? == some .itemDoc)).length ↔
      ∀ k ≤ n, ∃ e, (es.take i).reverse[k]? = some e ∧ e.marker? = some .itemDoc := by
    intro n
    rw [List.rtakeWhile, List.length_reverse, lt_length_takeWhile_iff]
    simp
  have hreverse : ∀ k, k < i → (es.take i).reverse[k]? = es[i - 1 - k]? := by
    intro k hk
    rw [List.getElem?_reverse (by omega), htake, List.getElem?_take_of_lt (by omega)]
  constructor
  · rw [← List.append_assoc, hsplit, List.take_append_drop]
  · intro e he
    simpa using List.mem_rtakeWhile_imp he
  · intro j
    constructor
    · rintro ⟨hlt, hrun⟩
      have hn : i - 1 - j < ((es.take i).rtakeWhile (·.marker? == some .itemDoc)).length := by
        rw [hback]
        intro k hk
        obtain ⟨e, he, hmarker⟩ := hrun (i - 1 - k) (by omega) (by omega)
        exact ⟨e, by rw [hreverse k (by omega), he], hmarker⟩
      omega
    · rintro ⟨hle, hlt⟩
      refine ⟨by omega, ?_⟩
      intro k hk hki
      obtain ⟨e, he, hmarker⟩ := (hback (i - 1 - j)).mp (by omega) (i - 1 - k) (by omega)
      rw [hreverse _ (by omega), show i - 1 - (i - 1 - k) = k by omega] at he
      exact ⟨e, he, hmarker⟩

/-! ## Reading two blocks -/

theorem stripped_filterMap
    {marker : Marker} {lines : List Element} (h : ∀ e ∈ lines, e.marker? = some marker) :
    DocBlock.stripped (lines.filterMap CommentLine.ofElement?) marker =
      lines.filterMap fun e =>
        (DocBlock.stripMarker? e.text marker).map fun text => (e.line, text) := by
  unfold DocBlock.stripped
  induction lines with
  | nil => rfl
  | cons e lines ih =>
      have he : CommentLine.ofElement? e = some ⟨marker, e.text, e.line⟩ := by
        rw [CommentLine.ofElement?, h e List.mem_cons_self]
        rfl
      rw [List.filterMap_cons, he]
      simp only [List.takeWhile_cons, beq_self_eq_true, if_true, List.filterMap_cons]
      rw [ih fun e' he' => h e' (List.mem_cons_of_mem e he')]

theorem classify_of_ignore_line
    {marker : Marker} {lines : List Element} (h : ∀ e ∈ lines, e.marker? = some marker)
    {n : Nat} {e : Element} {text : String} (hline : lines[n]? = some e)
    (hstripped : DocBlock.stripMarker? e.text marker = some text)
    (hignore : Text.trimEnd text = DocBlock.ignoreDirective)
    (hbefore : ∀ k < n, ∀ e', lines[k]? = some e' → DocBlock.stripMarker? e'.text marker = none) :
    DocBlock.classify (lines.filterMap CommentLine.ofElement?) marker = .ok .ignored := by
  rw [DocBlock.classify_eq_ignored_iff, DocBlock.OpensWithIgnore, stripped_filterMap h]
  induction lines generalizing n with
  | nil => simp at hline
  | cons e' lines ih =>
      cases n with
      | zero =>
          obtain rfl : e' = e := by simpa using hline
          rw [List.filterMap_cons, hstripped]
          exact ⟨_, _, _, rfl, hignore⟩
      | succ n =>
          rw [List.filterMap_cons, hbefore 0 (Nat.succ_pos n) e' rfl]
          refine ih (fun e'' he'' => h e'' (List.mem_cons_of_mem e' he'')) (by simpa using hline) ?_
          intro k hk e'' he''
          exact hbefore (k + 1) (by omega) e'' (by simpa using he'')

theorem exists_of_forall₂
    {α β : Type} {r : α → β → Prop} {xs : List α} {ys : List β} (h : List.Forall₂ r xs ys)
    {j : Nat} {x : α} (hx : xs[j]? = some x) : ∃ y, ys[j]? = some y ∧ r x y := by
  induction h generalizing j with
  | nil => simp at hx
  | @cons a b _ _ hab _ ih =>
      cases j with
      | zero =>
          obtain rfl : a = x := by simpa using hx
          exact ⟨b, rfl, hab⟩
      | succ j => exact ih (by simpa using hx)

section

variable {es es' : List Element}

theorem forall₂_takeWhile_marker
    (h : List.Forall₂ Element.Alike es es') (marker : Marker) :
    List.Forall₂ Element.Alike (es.takeWhile (·.marker? == some marker))
      (es'.takeWhile (·.marker? == some marker)) :=
  forall₂_takeWhile (fun _ _ he => by rw [Element.marker?_of_kind he.kind]) h

section

variable {marker : Marker} {run : Nat → Prop} {front lines rest : List Element}

theorem Stretch.getElem?_lines (h : Stretch es marker run front lines rest) {n : Nat}
    (hn : n < lines.length) : es[front.length + n]? = lines[n]? := by
  rw [h.whole, List.getElem?_append_right (Nat.le_add_right _ _), Nat.add_sub_cancel_left,
    List.getElem?_append_left hn]

theorem Stretch.exists_line (h : Stretch es marker run front lines rest) {j : Nat} (hj : run j) :
    ∃ n e, j = front.length + n ∧ lines[n]? = some e ∧ es[j]? = some e := by
  obtain ⟨hle, hlt⟩ := (h.positions j).mp hj
  obtain ⟨n, rfl⟩ := Nat.exists_eq_add_of_le hle
  have hn : n < lines.length := Nat.lt_of_add_lt_add_left hlt
  have hline := List.getElem?_eq_getElem hn
  exact ⟨n, lines[n], rfl, hline, (h.getElem?_lines hn).trans hline⟩

theorem Stretch.run_of_line (h : Stretch es marker run front lines rest) {n : Nat} {e : Element}
    (he : lines[n]? = some e) : run (front.length + n) ∧ es[front.length + n]? = some e := by
  obtain ⟨hn, -⟩ := List.getElem?_eq_some_iff.mp he
  refine ⟨(h.positions _).mpr ⟨Nat.le_add_right _ _, Nat.add_lt_add_left hn _⟩, ?_⟩
  rw [h.getElem?_lines hn, he]

theorem Stretch.marked_of_alike
    (h : Stretch es marker run front lines rest) {lines' : List Element}
    (hlines : List.Forall₂ Element.Alike lines lines') :
    ∀ e' ∈ lines', e'.marker? = some marker := by
  intro e' he'
  obtain ⟨n, hn⟩ := List.mem_iff_getElem?.mp he'
  obtain ⟨e, he, halike⟩ := exists_of_forall₂ hlines.flip hn
  rw [Element.marker?_of_kind (Element.Alike.kind halike)]
  exact h.marked e (List.mem_of_getElem? he)

/-- A run that opens with the directive is read as such whatever follows its first line. -/
theorem Stretch.classify_of_opensIgnored
    (h : Stretch es marker run front lines rest) (hignored : OpensIgnored es marker run)
    {lines' : List Element} (hlines : List.Forall₂ Element.Alike lines lines')
    (htext : ∀ n e e', Decides es marker run (front.length + n) → lines[n]? = some e →
      lines'[n]? = some e' → e'.text = e.text) :
    DocBlock.classify (lines'.filterMap CommentLine.ofElement?) marker = .ok .ignored := by
  obtain ⟨j, text, hj, hbefore, hstripped, hignore⟩ := hignored
  obtain ⟨n, e, rfl, hline, he⟩ := h.exists_line hj
  obtain ⟨e', hline', -⟩ := exists_of_forall₂ hlines hline
  rw [strippedAt?, he, Option.bind_some] at hstripped
  have hsame := htext n e e' ⟨hj, fun _ => hbefore⟩ hline hline'
  refine classify_of_ignore_line (h.marked_of_alike hlines) hline' (hsame ▸ hstripped) hignore ?_
  intro k hk d' hd'
  obtain ⟨d, hd, -⟩ := exists_of_forall₂ hlines.flip hd'
  obtain ⟨hrun, hat⟩ := h.run_of_line hd
  have hnone := hbefore (front.length + k) (by omega) hrun
  rw [strippedAt?, hat, Option.bind_some] at hnone
  have hfirst : NoLineBefore es marker run (front.length + k) := by
    intro l hl
    exact hbefore l (by omega)
  rw [htext k d d' ⟨hrun, fun _ => hfirst⟩ hd hd', hnone]

theorem Stretch.classify_self
    (h : Stretch es marker run front lines rest) (hignored : OpensIgnored es marker run) :
    DocBlock.classify (lines.filterMap CommentLine.ofElement?) marker = .ok .ignored := by
  have hself : List.Forall₂ Element.Alike lines lines :=
    List.forall₂_same.mpr fun _ _ => ⟨rfl, rfl⟩
  apply h.classify_of_opensIgnored hignored hself
  intro n e e' _ he he'
  rw [Option.some.inj (he.symm.trans he')]

theorem Stretch.classify_eq
    (h : Stretch es marker run front lines rest)
    {lines' : List Element} (hlines : List.Forall₂ Element.Alike lines lines')
    (htext : ∀ n e e', Decides es marker run (front.length + n) → lines[n]? = some e →
      lines'[n]? = some e' → e'.text = e.text) :
    DocBlock.classify (lines'.filterMap CommentLine.ofElement?) marker =
      DocBlock.classify (lines.filterMap CommentLine.ofElement?) marker := by
  by_cases hignored : OpensIgnored es marker run
  · rw [h.classify_of_opensIgnored hignored hlines htext, h.classify_self hignored]
  · have hsame : lines'.map (fun e => (e.line, e.text)) =
        lines.map (fun e => (e.line, e.text)) := by
      apply List.ext_getElem?
      intro n
      rw [List.getElem?_map, List.getElem?_map]
      cases he : lines[n]? with
      | none =>
          have hlength := hlines.length_eq
          rw [List.getElem?_eq_none_iff] at he
          rw [List.getElem?_eq_none_iff.mpr (hlength ▸ he)]
      | some e =>
          obtain ⟨e', he', halike⟩ := exists_of_forall₂ hlines he
          obtain ⟨hrun, -⟩ := h.run_of_line he
          have hdecides : Decides es marker run (front.length + n) :=
            ⟨hrun, fun hopens => absurd hopens hignored⟩
          rw [he', Option.map_some, Option.map_some, halike.line, htext n e e' hdecides he he']
    have hstripped : ∀ lines : List Element,
        (lines.filterMap fun e =>
          (DocBlock.stripMarker? e.text marker).map fun text => (e.line, text)) =
        (lines.map fun e => (e.line, e.text)).filterMap fun l =>
          (DocBlock.stripMarker? l.2 marker).map fun text => (l.1, text) := by
      intro lines
      rw [List.filterMap_map]
      rfl
    unfold DocBlock.classify
    rw [stripped_filterMap h.marked, stripped_filterMap (h.marked_of_alike hlines), hstripped,
      hsame, ← hstripped]

end

/-! ## Two streams -/

theorem Extended.of_alike
    {extensions : List String} (h : List.Forall₂ Element.Alike es es')
    (hextended : Extended extensions es) : Extended extensions es' := by
  obtain ⟨e, he, m, hm, hkind⟩ := hextended
  obtain ⟨j, hj⟩ := List.mem_iff_getElem?.mp he
  obtain ⟨e', he', halike⟩ := exists_of_forall₂ h hj
  exact ⟨e', List.mem_of_getElem? he', m, hm, halike.kind.trans hkind⟩

theorem Selected.of_alike
    {extensions : List String} {e e' : Element} {kind : Option String → Item.Kind}
    (h : List.Forall₂ Element.Alike es es') (he : e.Alike e')
    (hselected : Selected extensions es e kind) : Selected extensions es' e' kind := by
  cases hselected with
  | routine hkind hpublic => exact .routine (he.kind.trans hkind) hpublic
  | «attribute» hkind hextended => exact .attribute (he.kind.trans hkind) (hextended.of_alike h)
  | modifier hkind hextended => exact .modifier (he.kind.trans hkind) (hextended.of_alike h)

theorem FirstPackage.of_alike
    {i : Nat} {p : Element} (h : List.Forall₂ Element.Alike es es') (hfirst : FirstPackage es i p) :
    ∃ p', FirstPackage es' i p' ∧ p.Alike p' := by
  obtain ⟨hat, hpackage, hbefore⟩ := hfirst
  obtain ⟨p', hat', halike⟩ := exists_of_forall₂ h hat
  refine ⟨p', ⟨hat', (Element.isPackage_of_kind halike.kind).trans hpackage, ?_⟩, halike⟩
  intro j hj e' he'
  obtain ⟨e, he, hflip⟩ := exists_of_forall₂ h.flip he'
  rw [Element.isPackage_of_kind (Element.Alike.kind hflip)]
  exact hbefore j hj e he

theorem FirstPackage.position_unique
    {i i' : Nat} {p p' : Element} (h : FirstPackage es i p) (h' : FirstPackage es i' p') :
    i = i' := by
  have hfound := (firstPackage?_of_firstPackage h).symm.trans (firstPackage?_of_firstPackage h')
  have hdrop := congrArg List.length (Prod.mk.inj (Option.some.inj hfound)).2
  obtain ⟨hi, -⟩ := List.getElem?_eq_some_iff.mp h.1
  obtain ⟨hi', -⟩ := List.getElem?_eq_some_iff.mp h'.1
  rw [List.length_drop, List.length_drop] at hdrop
  omega

/-- Two streams that differ at most in texts at positions that do not count, and in spans. -/
structure Agree (extensions : List String) (es es' : List Element) : Prop where
  alike : List.Forall₂ Element.Alike es es'
  text : ∀ j e e', Relevant extensions es j → es[j]? = some e → es'[j]? = some e' →
    e'.text = e.text

section

variable {extensions : List String} {i : Nat} {p : Element}

theorem Agree.alike_symm (h : Agree extensions es es') : List.Forall₂ Element.Alike es' es :=
  h.alike.flip.imp fun _ _ halike => Element.Alike.symm halike

theorem Agree.classify_packageBlockAt
    (h : Agree extensions es es') (hfirst : FirstPackage es i p) :
    DocBlock.classify (packageBlockAt es' i) .packageDoc =
      DocBlock.classify (packageBlockAt es i) .packageDoc := by
  have hi : i < es.length := (List.getElem?_eq_some_iff.mp hfirst.1).1
  have hlength := h.alike.length_eq
  have hstretch := stretch_packageRun hi
  have hstretch' := stretch_packageRun (hlength ▸ hi)
  have hlines := forall₂_takeWhile_marker (List.forall₂_drop (i + 1) h.alike) .packageDoc
  have hfront : (es'.take (i + 1)).length = (es.take (i + 1)).length := by
    rw [List.length_take, List.length_take, hlength]
  refine hstretch.classify_eq hlines ?_
  intro n e e' hdecides he he'
  have hat' := (hstretch'.run_of_line he').2
  rw [hfront] at hat'
  exact h.text _ e e' (.packageLine hfirst hdecides) (hstretch.run_of_line he).2 hat'

theorem not_packageIgnored
    {description : String} {test : Option String} (hfirst : FirstPackage es i p)
    (hblock : DocBlock.classify (packageBlockAt es i) .packageDoc =
      .ok (.documented description test)) : ¬ PackageIgnored es := by
  rintro ⟨i', p', hfirst', hignored⟩
  obtain rfl := hfirst.position_unique hfirst'
  have hi : i < es.length := (List.getElem?_eq_some_iff.mp hfirst.1).1
  have hread := (stretch_packageRun hi).classify_self hignored
  have hsame := Except.ok.inj (hblock.symm.trans hread)
  exact absurd hsame (by simp)

variable {e : Element} {kind : Option String → Item.Kind}

theorem Agree.classify_itemBlockAt
    (h : Agree extensions es es') (hread : ¬ PackageIgnored es) (hat : es[i]? = some e)
    (hselected : Selected extensions es e kind) :
    DocBlock.classify (itemBlockAt es' i) .itemDoc =
      DocBlock.classify (itemBlockAt es i) .itemDoc := by
  have hi : i < es.length := (List.getElem?_eq_some_iff.mp hat).1
  have hlength := h.alike.length_eq
  have hstretch := stretch_itemRun hi
  have hstretch' := stretch_itemRun (hlength ▸ hi)
  have hbefore := List.forall₂_reverse_iff.mpr (List.forall₂_take i h.alike)
  have hlines := List.forall₂_reverse_iff.mpr (forall₂_takeWhile_marker hbefore .itemDoc)
  -- The runs end at one position and are of one length, so they begin at one position.
  have hfront : ((es'.take i).rdropWhile (·.marker? == some .itemDoc)).length =
      ((es.take i).rdropWhile (·.marker? == some .itemDoc)).length := by
    have hwhole := congrArg List.length hstretch.whole
    have hwhole' := congrArg List.length hstretch'.whole
    have hcount := hlines.length_eq
    simp only [List.length_append, List.length_drop, List.rtakeWhile] at hwhole hwhole'
    omega
  refine hstretch.classify_eq hlines ?_
  intro n d d' hdecides hd hd'
  have hat' := (hstretch'.run_of_line hd').2
  rw [hfront] at hat'
  exact h.text _ d d' (.itemLine hread hat hselected hdecides) (hstretch.run_of_line hd).2 hat'

theorem not_opensIgnored
    {description : String} {test : Option String} (hat : es[i]? = some e)
    (hblock : DocBlock.classify (itemBlockAt es i) .itemDoc =
      .ok (.documented description test)) : ¬ OpensIgnored es .itemDoc (InItemRun es i) := by
  intro hignored
  have hi : i < es.length := (List.getElem?_eq_some_iff.mp hat).1
  have hread := (stretch_itemRun hi).classify_self hignored
  have hsame := Except.ok.inj (hblock.symm.trans hread)
  exact absurd hsame (by simp)

theorem Agree.malformedAt_iff
    (h : Agree extensions es es') (hread : ¬ PackageIgnored es) (i : Nat) (m : Malformed) :
    MalformedAt extensions es' i m ↔ MalformedAt extensions es i m := by
  constructor
  · rintro ⟨e', kind, hat', hselected', hblock'⟩
    obtain ⟨e, hat, halike⟩ := exists_of_forall₂ h.alike.flip hat'
    have hselected := hselected'.of_alike h.alike_symm halike.symm
    exact ⟨e, kind, hat, hselected, (h.classify_itemBlockAt hread hat hselected) ▸ hblock'⟩
  · rintro ⟨e, kind, hat, hselected, hblock⟩
    obtain ⟨e', hat', halike⟩ := exists_of_forall₂ h.alike hat
    refine ⟨e', kind, hat', hselected.of_alike h.alike halike, ?_⟩
    rw [h.classify_itemBlockAt hread hat hselected, hblock]

theorem Agree.documentedAt_iff
    (h : Agree extensions es es') (hread : ¬ PackageIgnored es) (i : Nat) (item : Item) :
    DocumentedAt extensions es' i item ↔ DocumentedAt extensions es i item := by
  have htext : ∀ {e e' kind description test}, es[i]? = some e → es'[i]? = some e' →
      Selected extensions es e kind →
      DocBlock.classify (itemBlockAt es i) .itemDoc = .ok (.documented description test) →
      e'.text = e.text := by
    intro e e' kind description test hat hat' hselected hblock
    exact h.text i e e' (.item hread hat hselected (not_opensIgnored hat hblock)) hat hat'
  constructor
  · rintro ⟨e', kind, description, test, hat', hselected', hblock', rfl⟩
    obtain ⟨e, hat, halike⟩ := exists_of_forall₂ h.alike.flip hat'
    have hselected := hselected'.of_alike h.alike_symm halike.symm
    rw [h.classify_itemBlockAt hread hat hselected] at hblock'
    refine ⟨e, kind, description, test, hat, hselected, hblock', ?_⟩
    rw [htext hat hat' hselected hblock', halike.line]
  · rintro ⟨e, kind, description, test, hat, hselected, hblock, rfl⟩
    obtain ⟨e', hat', halike⟩ := exists_of_forall₂ h.alike hat
    refine ⟨e', kind, description, test, hat', hselected.of_alike h.alike halike, ?_, ?_⟩
    · rw [h.classify_itemBlockAt hread hat hselected, hblock]
    · rw [htext hat hat' hselected hblock, halike.line]

/-- What is collected is told by the positions of malformed and of documented declarations. -/
theorem Collected.congr
    {start : Nat} {result : Except Malformed (List Item)}
    (hmalformed : ∀ i m, MalformedAt extensions es' i m ↔ MalformedAt extensions es i m)
    (hdocumented : ∀ i item, DocumentedAt extensions es' i item ↔ DocumentedAt extensions es i item)
    (h : Collected extensions es start result) : Collected extensions es' start result := by
  cases h with
  | malformed h =>
      obtain ⟨i, hi, hat, hbefore⟩ := h
      refine .malformed ⟨i, hi, (hmalformed i _).mpr hat, ?_⟩
      intro j hj hji m hm
      exact hbefore j hj hji m ((hmalformed j m).mp hm)
  | all h =>
      obtain ⟨hreadable, order, hsorted, hstart, hitems, hall⟩ := h
      refine .all ⟨?_, order, hsorted, hstart, ?_, ?_⟩
      · intro i m hi hm
        exact hreadable i m hi ((hmalformed i m).mp hm)
      · exact hitems.imp fun i item hat => (hdocumented i item).mpr hat
      · intro i item hi hat
        exact hall i item hi ((hdocumented i item).mp hat)

theorem Agree.items_eq
    (h : Agree extensions es es') (hread : ¬ PackageIgnored es) :
    items (Flavor.detect (es'.filterMap Element.include?) extensions) [] es' =
      items (Flavor.detect (es.filterMap Element.include?) extensions) [] es := by
  have hcollected := collected_all extensions es
  have hmalformed := h.malformedAt_iff hread
  have hdocumented := h.documentedAt_iff hread
  exact (collected_all extensions es').unique (hcollected.congr hmalformed hdocumented)

theorem Agree.detect_eq (h : Agree extensions es es') :
    Flavor.detect (es'.filterMap Element.include?) extensions =
      Flavor.detect (es.filterMap Element.include?) extensions := by
  apply eq_of_extended_iff
  rw [detect_eq_extended_iff, detect_eq_extended_iff]
  exact ⟨fun hextended => hextended.of_alike h.alike_symm,
    fun hextended => hextended.of_alike h.alike⟩

end

end

/-- Two streams that agree in what extraction may see give the same module, the same reason for
leaving it out or the same error. -/
theorem ofElements_eq_of_agree
    (extensions : List String) (path : Path) (es es' : List Element)
    (h : Agree extensions es es') :
    Module.ofElements extensions path es' = Module.ofElements extensions path es := by
  rcases firstPackage?_cases es with ⟨-, hnone⟩ | ⟨i, p, -, hfirst⟩
  · have hnone' : ∀ e' ∈ es', e'.isPackage = false := by
      intro e' he'
      obtain ⟨j, hj⟩ := List.mem_iff_getElem?.mp he'
      obtain ⟨e, he, halike⟩ := exists_of_forall₂ h.alike_symm hj
      rw [← Element.isPackage_of_kind halike.kind]
      exact hnone e (List.mem_of_getElem? he)
    rw [ofElements_of_no_package hnone, ofElements_of_no_package hnone']
  · obtain ⟨p', hfirst', halike⟩ := hfirst.of_alike h.alike
    have hblocks := h.classify_packageBlockAt hfirst
    cases hblock : DocBlock.classify (packageBlockAt es i) .packageDoc with
    | error m =>
        rw [ofElements_of_malformed hfirst hblock,
          ofElements_of_malformed hfirst' (hblocks.trans hblock)]
    | ok block =>
        cases block with
        | ignored =>
            rw [ofElements_of_ignored hfirst hblock,
              ofElements_of_ignored hfirst' (hblocks.trans hblock)]
        | documented description test =>
            have hread := not_packageIgnored hfirst hblock
            have htext := h.text i p p' (.package hfirst hread) hfirst.1 hfirst'.1
            rw [ofElements_of_documented hfirst hblock,
              ofElements_of_documented hfirst' (hblocks.trans hblock), h.items_eq hread,
              h.detect_eq, htext, halike.line]

/-- A module with a text in a plain comment, behind an ignore directive and its routine, and around
a private routine. -/
def concealing (text : String) : List Element :=
  [{ kind := .package "Shape", text := "package Shape;", span := ⟨0, 14⟩, line := 1 },
    { kind := .comment .packageDoc, text := "##! Areas.", span := ⟨15, 25⟩, line := 2 },
    { kind := .comment .plain, text := "# " ++ text, span := ⟨26, 30⟩, line := 3 },
    { kind := .comment .itemDoc, text := "### #[ignore(item)]", span := ⟨31, 50⟩, line := 4 },
    { kind := .comment .itemDoc, text := "### " ++ text, span := ⟨51, 56⟩, line := 5 },
    { kind := .routine "area", text := "sub area(" ++ text ++ ")", span := ⟨57, 69⟩, line := 6 },
    { kind := .comment .itemDoc, text := "### " ++ text, span := ⟨70, 75⟩, line := 7 },
    { kind := .routine "_half", text := "sub _half", span := ⟨76, 88⟩, line := 8 }]

theorem relevant_concealing {text : String} {j : Nat} (h : Relevant [] (concealing text) j) :
    j = 0 ∨ j = 1 ∨ j = 3 := by
  have hpackage : ∃ p, FirstPackage (concealing text) 0 p := by
    refine ⟨_, rfl, rfl, ?_⟩
    intro k hk
    omega
  obtain ⟨p, hpackage⟩ := hpackage
  have hselected : ∀ {i e kind}, (concealing text)[i]? = some e →
      Selected [] (concealing text) e kind → i = 5 := by
    intro i e kind hat hselected
    obtain ⟨hi, -⟩ := List.getElem?_eq_some_iff.mp hat
    change i < 8 at hi
    have hprivate : HasPrivateName "_half" := (isPrivate_iff "_half").mp (by decide)
    rcases hselected with ⟨hkind, hpublic⟩ | ⟨-, _, -, _, hm, -⟩ | ⟨-, _, -, _, hm, -⟩
    · interval_cases i <;> obtain rfl := Option.some.inj hat <;> cases hkind
      · rfl
      · exact absurd hprivate hpublic
    · cases hm
    · cases hm
  have hrun : ∀ {k}, InItemRun (concealing text) 5 k → k = 3 ∨ k = 4 := by
    rintro k ⟨hk, hcomments⟩
    by_contra hother
    obtain ⟨e, he, hmarker⟩ := hcomments 2 (by omega) (by omega)
    obtain rfl := Option.some.inj he
    cases hmarker
  have hthree : InItemRun (concealing text) 5 3 := by
    refine ⟨by omega, ?_⟩
    intro k hk hk'
    interval_cases k <;> exact ⟨_, rfl, rfl⟩
  have hstripped : strippedAt? (concealing text) .itemDoc 3 = some DocBlock.ignoreDirective := by
    change DocBlock.stripMarker? "### #[ignore(item)]" .itemDoc = _
    decide
  have hignored : OpensIgnored (concealing text) .itemDoc (InItemRun (concealing text) 5) := by
    refine ⟨3, _, hthree, ?_, hstripped, by decide⟩
    intro k hk hkrun
    rcases hrun hkrun with rfl | rfl <;> omega
  cases h with
  | packageLine hfirst hline =>
      obtain rfl := hfirst.position_unique hpackage
      obtain ⟨⟨hj, hcomments⟩, -⟩ := hline
      by_contra hother
      obtain ⟨e, he, hmarker⟩ := hcomments 2 (by omega) (by omega)
      obtain rfl := Option.some.inj he
      cases hmarker
  | package hfirst hread =>
      left
      exact hfirst.position_unique hpackage
  | itemLine hread hat hselect hline =>
      obtain rfl := hselected hat hselect
      obtain ⟨hj, hfirst⟩ := hline
      rcases hrun hj with rfl | rfl
      · simp
      · have hnone := hfirst hignored 3 (by omega) hthree
        rw [hstripped] at hnone
        cases hnone
  | item hread hat hselect hread' =>
      obtain rfl := hselected hat hselect
      exact absurd hignored hread'

theorem ofElements_concealing :
    Agree [] (concealing "one") (concealing "two") ∧
      Module.ofElements [] ⟨"Shape.pm"⟩ (concealing "two") =
        Module.ofElements [] ⟨"Shape.pm"⟩ (concealing "one") := by
  have hagree : Agree [] (concealing "one") (concealing "two") := by
    constructor
    · repeat' constructor
    · intro j e e' hrelevant he he'
      rcases relevant_concealing hrelevant with rfl | rfl | rfl <;>
        exact (Option.some.inj he') ▸ (Option.some.inj he) ▸ rfl
  exact ⟨hagree, ofElements_eq_of_agree [] ⟨"Shape.pm"⟩ _ _ hagree⟩

end Extract

end MarkerDoc
