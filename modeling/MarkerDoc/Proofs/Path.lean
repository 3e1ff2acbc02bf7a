import MarkerDoc.Path
import MarkerDoc.Proofs.Text

/-!
# Laws of paths

What a path means is its list of components.  This module computes the components of the paths that
pages are placed at: of one path taken from another, of a path through some segments, and of a path
whose file name is given another extension.
-/

namespace MarkerDoc.Path

/-! ## Pieces -/

/-- The components that a text stands for where it continues a path. -/
def steps (s : String) : List Component :=
  (Text.splitOn "/" s).filterMap component?

theorem steps_empty : steps "" = [] := by
  decide +kernel

theorem Component.name?_eq_some_iff {c : Component} {name : String} :
    c.name? = some name ↔ c = .name name := by
  cases c <;> simp [Component.name?]

theorem component?_eq_none_iff {s : String} : component? s = none ↔ isIdle s = true := by
  unfold component?
  split_ifs <;> simp_all

theorem component?_eq_name_iff {s name : String} :
    component? s = some (.name name) ↔ s = name ∧ isIdle s = false ∧ s ≠ ".." := by
  unfold component?
  split_ifs <;> simp_all

theorem Pieces.ofList_append
    {front : List String} (hne : front ≠ []) (hempty : front ≠ [""]) (rest : List String) :
    Pieces.ofList (front ++ rest) =
      ⟨(Pieces.ofList front).lead, (Pieces.ofList front).body ++ rest⟩ := by
  match front, hne, hempty with
  | [s], _, hempty =>
      by_cases hdot : s = "."
      · subst hdot
        rfl
      · have hs : s ≠ "" := fun h => hempty (by rw [h])
        simp [Pieces.ofList, hs, hdot]
  | s :: t :: front, _, _ =>
      by_cases hs : s = ""
      · subst hs
        rfl
      · by_cases hdot : s = "."
        · subst hdot
          rfl
        · simp [Pieces.ofList, hs, hdot]

theorem splitOn_slash_ne_singleton_empty {s : String} (hs : s ≠ "") :
    Text.splitOn "/" s ≠ [""] := by
  intro h
  rw [Text.splitOn_slash] at h
  have hsplit : s.toList.splitOn '/' = [[]] := by simpa using h
  have hlist : ['/'].intercalate (s.toList.splitOn '/') = s.toList := List.intercalate_splitOn '/'
  rw [hsplit, List.intercalate_singleton] at hlist
  exact hs (String.toList_eq_nil_iff.mp hlist.symm)

theorem isAbsolute_iff (p : Path) : p.isAbsolute = true ↔ ∃ s, p.text = "/" ++ s := by
  rw [isAbsolute, beq_iff_eq, List.head?_eq_some_iff]
  constructor
  · rintro ⟨rest, hrest⟩
    exact ⟨String.ofList rest, by rw [← String.toList_inj, hrest]; simp⟩
  · rintro ⟨s, hs⟩
    exact ⟨s.toList, by rw [hs, String.toList_append]; rfl⟩

theorem components_absolute (s : String) : components ⟨"/" ++ s⟩ = .root :: steps s := by
  have hsplit : Text.splitOn "/" ("/" ++ s) = "" :: Text.splitOn "/" s := by
    have hempty : Text.splitOn "/" "" = [""] := by decide +kernel
    simpa [hempty] using Text.splitOn_slash_append "" s
  obtain ⟨first, others, hs⟩ := List.exists_cons_of_ne_nil (Text.splitOn_slash_ne_nil s)
  rw [components, pieces, hsplit, steps, hs]
  rfl

theorem components_append_slash {s : String} (hs : s ≠ "") (t : String) :
    components ⟨s ++ "/" ++ t⟩ = components ⟨s⟩ ++ steps t := by
  have hpieces : pieces ⟨s ++ "/" ++ t⟩ =
      ⟨(pieces ⟨s⟩).lead, (pieces ⟨s⟩).body ++ Text.splitOn "/" t⟩ := by
    rw [pieces, Text.splitOn_slash_append, Pieces.ofList_append (Text.splitOn_slash_ne_nil s)
      (splitOn_slash_ne_singleton_empty hs)]
    rfl
  rw [components, hpieces, List.filterMap_append, ← List.append_assoc]
  rfl

theorem exists_piece_of_head?
    {s : String} {c : Char} (hhead : s.toList.head? = some c) (hslash : c ≠ '/') :
    ∃ tail rest, Text.splitOn "/" s = String.ofList (c :: tail) :: rest := by
  obtain ⟨cs, hs⟩ := List.head?_eq_some_iff.mp hhead
  obtain ⟨first, others, hsplit⟩ := List.exists_cons_of_ne_nil (List.splitOn_ne_nil '/' cs)
  refine ⟨first, others.map String.ofList, ?_⟩
  rw [Text.splitOn_slash, hs, List.splitOn_cons_eq_if_modifyHead, if_neg (by simpa using hslash),
    hsplit]
  rfl

section

variable {s : String} {c : Char} (hhead : s.toList.head? = some c) (hslash : c ≠ '/')
  (hdot : c ≠ '.')

include hdot in
theorem isIdle_eq_false_of_head? {tail : List Char} :
    isIdle (String.ofList (c :: tail)) = false := by
  have hne : ∀ t : String, t.toList.head? ≠ some c → String.ofList (c :: tail) ≠ t := by
    rintro t ht rfl
    exact ht (by rw [String.toList_ofList]; rfl)
  simp only [isIdle, Bool.or_eq_false_iff, beq_eq_false_iff_ne]
  exact ⟨hne "" (by simp), hne "." (by simpa using hdot.symm)⟩

include hhead hslash hdot

/-- A text that begins with neither a slash nor a dot is a path of its own steps. -/
theorem components_eq_steps_of_head? : components ⟨s⟩ = steps s := by
  obtain ⟨tail, rest, hsplit⟩ := exists_piece_of_head? hhead hslash
  have hactive : isIdle (String.ofList (c :: tail)) = false := isIdle_eq_false_of_head? hdot
  have hpieces : pieces ⟨s⟩ = ⟨none, Text.splitOn "/" s⟩ := by
    rw [pieces, hsplit]
    generalize String.ofList (c :: tail) = first at hactive
    have hne : first ≠ "" ∧ first ≠ "." := by simpa [isIdle] using hactive
    simp [Pieces.ofList, hne]
  rw [components, hpieces]
  rfl

theorem steps_ne_nil_of_head? : steps s ≠ [] := by
  obtain ⟨tail, rest, hsplit⟩ := exists_piece_of_head? hhead hslash
  have hactive : isIdle (String.ofList (c :: tail)) = false := isIdle_eq_false_of_head? hdot
  rw [steps, hsplit, Ne, List.filterMap_eq_nil_iff]
  intro h
  have hidle := component?_eq_none_iff.mp (h _ List.mem_cons_self)
  exact Bool.false_ne_true (hactive.symm.trans hidle)

end

theorem components_ne_nil {p : Path} (h : p.text ≠ "") : p.components ≠ [] := by
  obtain ⟨s⟩ := p
  have hne : s.toList ≠ [] := fun hnil => h (String.toList_eq_nil_iff.mp hnil)
  obtain ⟨c, cs, hs⟩ := List.exists_cons_of_ne_nil hne
  have hhead : s.toList.head? = some c := by rw [hs]; rfl
  by_cases hslash : c = '/'
  · have habsolute : isAbsolute ⟨s⟩ = true := by rw [isAbsolute, beq_iff_eq, hhead, hslash]
    obtain ⟨t, ht⟩ := (isAbsolute_iff ⟨s⟩).mp habsolute
    change s = "/" ++ t at ht
    rw [ht, components_absolute]
    simp
  · obtain ⟨tail, rest, hsplit⟩ := exists_piece_of_head? hhead hslash
    have hempty : String.ofList (c :: tail) ≠ "" := by simp
    rw [components, pieces, hsplit]
    generalize String.ofList (c :: tail) = first at hempty
    by_cases hdot : first = "."
    · subst hdot
      simp [Pieces.ofList, leadComponents]
    · have hactive : component? first ≠ none := by
        rw [Ne, component?_eq_none_iff]
        simp [isIdle, hempty, hdot]
      obtain ⟨d, hd⟩ := Option.ne_none_iff_exists'.mp hactive
      simp [Pieces.ofList, hempty, hdot, hd]

/-- The steps of a text are names unless it goes up. -/
theorem forall_steps_iff (s : String) :
    (∀ c ∈ steps s, ∃ name, c = .name name) ↔ ".." ∉ Text.splitOn "/" s := by
  have hpiece : ∀ piece, (∀ c ∈ component? piece, ∃ name, c = .name name) ↔ piece ≠ ".." := by
    intro piece
    unfold component?
    split_ifs with hidle hup
    · have hne : piece ≠ ".." := by
        rintro rfl
        revert hidle
        decide +kernel
      simp [hne]
    · simp [hup]
    · simp [hup]
  constructor
  · intro h hmem
    exact (hpiece "..").mp (fun c hc => h c (List.mem_filterMap.mpr ⟨_, hmem, hc⟩)) rfl
  · intro h c hc
    obtain ⟨piece, hmem, hsome⟩ := List.mem_filterMap.mp hc
    exact (hpiece piece).mpr (fun heq => h (heq ▸ hmem)) c hsome

/-! ## Paths taken from paths -/

theorem exists_of_getLast?_slash
    {s : String} (h : s.toList.getLast? = some '/') : ∃ t, s = t ++ "/" := by
  obtain ⟨front, hfront⟩ := List.getLast?_eq_some_iff.mp h
  exact ⟨String.ofList front, by rw [← String.toList_inj, hfront]; simp⟩

theorem components_join
    {p q : Path} (hp : p.text ≠ "") (hq : q.isAbsolute = false) :
    (p.join q).components = p.components ++ steps q.text := by
  obtain ⟨s⟩ := p
  rw [join, if_neg (by simp [hq])]
  by_cases hlast : s.toList.getLast? = some '/'
  · rw [if_pos (by simp [hlast])]
    obtain ⟨t, rfl⟩ := exists_of_getLast?_slash hlast
    by_cases ht : t = ""
    · subst ht
      have hroot : components ⟨"" ++ "/"⟩ = .root :: steps "" := components_absolute ""
      rw [hroot, steps_empty]
      exact components_absolute q.text
    · have hslash : components ⟨t ++ "/" ++ ""⟩ = components ⟨t⟩ ++ steps "" :=
        components_append_slash ht ""
      rw [components_append_slash ht]
      rw [steps_empty, String.append_empty, List.append_nil] at hslash
      rw [hslash]
  · rw [if_neg (by simpa [isEmpty, hlast] using hp)]
    exact components_append_slash hp q.text

theorem join_of_empty (q : Path) : join ⟨""⟩ q = q := by
  unfold join
  split
  · rfl
  · simp [isEmpty]

theorem text_join_ne_empty {p q : Path} (hp : p.text ≠ "") : (p.join q).text ≠ "" := by
  unfold join
  split
  · next hq =>
      obtain ⟨s, hs⟩ := (isAbsolute_iff q).mp hq
      simp [hs]
  · split <;> simp [hp]

theorem isAbsolute_join {p q : Path} (h : p.isAbsolute = true ∨ q.isAbsolute = true) :
    (p.join q).isAbsolute = true := by
  cases hq : q.isAbsolute with
  | true =>
      rw [join, if_pos hq]
      exact hq
  | false =>
      obtain ⟨s, hs⟩ := (isAbsolute_iff p).mp (h.resolve_right (by simp [hq]))
      rw [isAbsolute_iff, join, if_neg (by simp [hq])]
      split
      · exact ⟨s ++ q.text, by rw [hs, String.append_assoc]⟩
      · exact ⟨s ++ "/" ++ q.text, by simp only [hs, String.append_assoc]⟩

/-- A path through segments, none of which starts again at the root. -/
theorem components_foldl_join
    {p : Path} (hp : p.text ≠ "") {segments : List String}
    (h : ∀ s ∈ segments, isAbsolute ⟨s⟩ = false) :
    (segments.foldl (fun p s => p.join ⟨s⟩) p).components =
      p.components ++ segments.flatMap steps := by
  induction segments generalizing p with
  | nil =>
      simp
  | cons s segments ih =>
      rw [List.foldl_cons, ih (text_join_ne_empty hp) fun t ht => h t (by simp [ht]),
        components_join hp (h s (by simp)), List.flatMap_cons, List.append_assoc]

theorem isAbsolute_foldl_join
    {p : Path} {segments : List String}
    (h : p.isAbsolute = true ∨ ∃ s ∈ segments, isAbsolute ⟨s⟩ = true) :
    (segments.foldl (fun p s => p.join ⟨s⟩) p).isAbsolute = true := by
  induction segments generalizing p with
  | nil =>
      simpa using h
  | cons s segments ih =>
      apply ih
      rcases h with hp | ⟨t, ht, habsolute⟩
      · exact .inl (isAbsolute_join (.inl hp))
      · rcases List.mem_cons.mp ht with rfl | ht
        · exact .inl (isAbsolute_join (.inr habsolute))
        · exact .inr ⟨t, ht, habsolute⟩

theorem components_ofSegments
    {first : String} {rest : List String} (hfirst : first ≠ "")
    (hlead : components ⟨first⟩ = steps first) (hrest : ∀ s ∈ rest, isAbsolute ⟨s⟩ = false) :
    (ofSegments (first :: rest)).components = (first :: rest).flatMap steps := by
  rw [ofSegments, List.foldl_cons, join_of_empty, components_foldl_join hfirst hrest, hlead,
    List.flatMap_cons]

theorem text_ofSegments_ne_empty
    {segments : List String} (hne : segments ≠ []) (h : ∀ s ∈ segments, s ≠ "") :
    (ofSegments segments).text ≠ "" := by
  obtain ⟨first, rest, rfl⟩ := List.exists_cons_of_ne_nil hne
  have hfold : ∀ {p : Path}, p.text ≠ "" →
      (rest.foldl (fun p s => p.join ⟨s⟩) p).text ≠ "" := by
    clear h hne
    induction rest with
    | nil => exact id
    | cons s rest ih => exact fun hp => ih (text_join_ne_empty hp)
  rw [ofSegments, List.foldl_cons, join_of_empty]
  exact hfold (h first (by simp))

/-! ## File names -/

theorem forall_ne_dot_of_not_mem {cs : List Char} (h : '.' ∉ cs) :
    ∀ c ∈ cs.reverse, (c != '.') = true := by
  intro c hc
  rw [bne_iff_ne]
  rintro rfl
  exact h (List.mem_reverse.mp hc)

/-- A name with no dot behind its first character is all stem. -/
theorem splitName_of_no_inner_dot {s : String} (h : '.' ∉ s.toList.tail) :
    splitName s = (s, none) := by
  have htail : s.toList.length - 1 ≤ (s.toList.reverse.takeWhile (· != '.')).length := by
    cases hs : s.toList with
    | nil => simp
    | cons c cs =>
        rw [hs, List.tail_cons] at h
        rw [List.reverse_cons, List.takeWhile_append_of_pos (forall_ne_dot_of_not_mem h),
          List.length_append]
        simp
  have hbefore : s.toList.length - (s.toList.reverse.takeWhile (· != '.')).length - 1 = 0 := by
    omega
  unfold splitName
  split
  · rfl
  · simp [hbefore]

/-- A name with something in front of its last dot is divided there. -/
theorem splitName_at_dot
    {front back : List Char} (hfront : front ≠ []) (hback : '.' ∉ back) {s : String}
    (hs : s.toList = front ++ '.' :: back) (hup : s ≠ "..") :
    splitName s = (String.ofList front, some (String.ofList back)) := by
  have hafter : s.toList.reverse.takeWhile (· != '.') = back.reverse := by
    rw [hs, List.reverse_append, List.reverse_cons, List.append_assoc,
      List.takeWhile_append_of_pos (forall_ne_dot_of_not_mem hback)]
    simp
  have hbefore : s.toList.take (s.toList.length - back.length - 1) = front := by
    have hlength : s.toList.length - back.length - 1 = front.length := by
      rw [hs, List.length_append, List.length_cons]
      omega
    rw [hlength, hs, List.take_left]
  rw [splitName, if_neg hup]
  simp only [hafter, List.reverse_reverse, hbefore]
  rw [if_neg (by simpa using hfront)]

theorem exists_last_dot {cs : List Char} (h : '.' ∈ cs.tail) :
    ∃ front back, front ≠ [] ∧ '.' ∉ back ∧ cs = front ++ '.' :: back := by
  obtain ⟨c, rest, rfl⟩ := List.exists_cons_of_ne_nil (List.ne_nil_of_mem (List.mem_of_mem_tail h))
  obtain ⟨back, front, hrest, hback⟩ := List.eq_append_cons_of_mem (List.mem_reverse.mpr h)
  refine ⟨c :: front.reverse, back.reverse, List.cons_ne_nil _ _, by simpa using hback, ?_⟩
  rw [List.tail_cons] at hrest
  rw [← List.reverse_reverse rest, hrest]
  simp

theorem splitName_fst_eq_self_iff {s : String} (hup : s ≠ "..") :
    (splitName s).1 = s ↔ '.' ∉ s.toList.tail := by
  constructor
  · intro h hdot
    obtain ⟨front, back, hfront, hback, hsplit⟩ := exists_last_dot hdot
    rw [splitName_at_dot hfront hback hsplit hup] at h
    have hlength := congrArg (fun t : String => t.toList.length) h
    simp only [String.toList_ofList, hsplit, List.length_append, List.length_cons] at hlength
    omega
  · intro h
    rw [splitName_of_no_inner_dot h]

/-- The name of a file with the extension of a page in place of its own. -/
def pageName (name : String) : String :=
  (splitName name).1 ++ "." ++ "md"

theorem component?_pageName (name : String) :
    component? (pageName name) = some (.name (pageName name)) := by
  have hlast : (pageName name).toList.getLast? = some 'd' := by
    simp [pageName, String.toList_append]
  have hne : ∀ s : String, s.toList.getLast? ≠ some 'd' → pageName name ≠ s := by
    rintro s hs rfl
    exact hs hlast
  have hidle : isIdle (pageName name) = false := by
    simp [isIdle, hne "" (by simp), hne "." (by decide +kernel)]
  simp [component?, hidle, hne ".." (by decide +kernel)]

theorem fileName?_eq_some_iff {p : Path} {name : String} :
    p.fileName? = some name ↔ ∃ front, p.components = front ++ [.name name] := by
  rw [fileName?, Option.bind_eq_some_iff]
  constructor
  · rintro ⟨c, hc, hname⟩
    obtain rfl := Component.name?_eq_some_iff.mp hname
    exact List.getLast?_eq_some_iff.mp hc
  · rintro ⟨front, hfront⟩
    exact ⟨.name name, List.getLast?_eq_some_iff.mpr ⟨front, hfront⟩, rfl⟩

theorem filterMap_component?_settle (ps : Pieces) :
    ps.settle.body.filterMap component? = ps.body.filterMap component? := by
  have hidle : (ps.body.rtakeWhile isIdle).filterMap component? = [] := by
    rw [List.filterMap_eq_nil_iff]
    intro s hs
    simp [component?, List.mem_rtakeWhile_imp hs]
  have hsplit : ps.body.rdropWhile isIdle ++ ps.body.rtakeWhile isIdle = ps.body :=
    List.rdropWhile_append_rtakeWhile
  conv_rhs => rw [← hsplit, List.filterMap_append, hidle, List.append_nil]
  rfl

theorem settle_body (ps : Pieces) : ps.settle.body = ps.body.rdropWhile isIdle :=
  rfl

/-- What is left without the last pieces that say nothing ends with one that says something. -/
theorem exists_of_rdropWhile_isIdle
    {pieces front : List String} {last : String}
    (h : pieces.rdropWhile isIdle = front ++ [last]) :
    isIdle last = false ∧ ∃ tail, pieces = front ++ last :: tail := by
  have hnot := List.rdropWhile_last_not isIdle pieces (by simp [h])
  obtain ⟨tail, htail⟩ := @List.rdropWhile_prefix _ isIdle pieces
  refine ⟨by simpa [h] using hnot, tail, ?_⟩
  rw [← htail, h, List.append_assoc, List.singleton_append]

/-- Where the file name of a path stands: at the end of its pieces, but for those that say
nothing. -/
theorem exists_pieces_of_fileName?
    {p : Path} {name : String} (h : p.fileName? = some name) :
    ∃ init tail, p.pieces.body = init ++ name :: tail ∧
      p.pieces.settle.body = init ++ [name] ∧
      p.components = leadComponents p.pieces.lead ++ init.filterMap component? ++ [.name name] := by
  have hcomponents : p.components =
      leadComponents p.pieces.lead ++ p.pieces.settle.body.filterMap component? := by
    rw [components, filterMap_component?_settle]
  rw [settle_body] at hcomponents ⊢
  rcases List.eq_nil_or_concat (p.pieces.body.rdropWhile isIdle) with hnil | ⟨init, last, hlast⟩
  · -- With nothing but a lead there is no file name.
    rw [fileName?, hcomponents, hnil] at h
    cases hlead : p.pieces.lead with
    | none => simp [hlead, leadComponents] at h
    | some lead =>
        simp only [hlead, leadComponents] at h
        split at h <;> simp [Component.name?] at h
  · rw [List.concat_eq_append] at hlast
    obtain ⟨hactive, tail, hbody⟩ := exists_of_rdropWhile_isIdle hlast
    obtain ⟨c, hc⟩ : ∃ c, component? last = some c := by
      rw [← Option.isSome_iff_exists, Option.isSome_iff_ne_none, Ne, component?_eq_none_iff]
      simp [hactive]
    have hsome : c = .name name := by
      rw [← Component.name?_eq_some_iff]
      simpa [fileName?, hcomponents, hlast, List.filterMap_append, hc] using h
    subst hsome
    obtain ⟨rfl, -⟩ := component?_eq_name_iff.mp hc
    refine ⟨init, tail, hbody, hlast, ?_⟩
    rw [hcomponents, hlast, List.filterMap_append, ← List.append_assoc]
    simp [hc]

theorem pieces_toPath
    {ps : Pieces} (hbody : ps.body ≠ [])
    (hslash : ∀ s ∈ ps.lead.toList ++ ps.body, '/' ∉ s.toList)
    (hofList : Pieces.ofList (ps.lead.toList ++ ps.body) = ps) : ps.toPath.pieces = ps := by
  have htext : ps.toPath = ⟨Text.joinWith "/" (ps.lead.toList ++ ps.body)⟩ := by
    unfold Pieces.toPath
    split
    · contradiction
    · rfl
  rw [htext, pieces, Text.splitOn_slash_joinWith (by simp [hbody]) hslash, hofList]

theorem Pieces.toList_ofList (front : List String) :
    (Pieces.ofList front).lead.toList ++ (Pieces.ofList front).body = front := by
  unfold Pieces.ofList
  split <;> rfl

/-- What is put in place of the last piece does not change how the pieces divide. -/
theorem Pieces.ofList_replace
    {front init tail : List String} {lead : Option String} {old new : String}
    (h : Pieces.ofList front = ⟨lead, init ++ old :: tail⟩) (hnew : isIdle new = false) :
    Pieces.ofList (lead.toList ++ (init ++ [new])) = ⟨lead, init ++ [new]⟩ := by
  have hne : new ≠ "" ∧ new ≠ "." := by simpa [isIdle] using hnew
  unfold Pieces.ofList at h
  split at h
  · obtain ⟨rfl, -⟩ := Pieces.mk.inj h
    cases init <;> rfl
  · obtain ⟨rfl, -⟩ := Pieces.mk.inj h
    rfl
  · next hempty hdot =>
      obtain ⟨rfl, rfl⟩ := Pieces.mk.inj h
      cases init with
      | nil => simp [Pieces.ofList, hne]
      | cons first init =>
          have hfirst : first ≠ "" ∧ first ≠ "." := by
            constructor
            · rintro rfl
              cases init with
              | nil => exact hempty _ _ rfl
              | cons second init => exact hempty _ _ rfl
            · rintro rfl
              exact hdot _ rfl
          simp [Pieces.ofList, hfirst]

theorem slash_not_mem_splitName {name : String} (h : '/' ∉ name.toList) :
    '/' ∉ (splitName name).1.toList := by
  unfold splitName
  split
  · exact h
  · simp only
    split
    · exact h
    · rw [String.toList_ofList]
      exact fun hmem => h (List.mem_of_mem_take hmem)

theorem slash_not_mem_pageName {name : String} (h : '/' ∉ name.toList) :
    '/' ∉ (pageName name).toList := by
  have hstem := slash_not_mem_splitName h
  simp [pageName, String.toList_append, hstem]

theorem slash_not_mem_of_mem_pieces
    {p : Path} {s : String} (h : s ∈ p.pieces.lead.toList ++ p.pieces.body) : '/' ∉ s.toList := by
  rw [pieces, Pieces.toList_ofList] at h
  exact Text.slash_not_mem_of_mem_splitOn h

/-- What a path stands for that goes on with another piece from some place on. -/
theorem components_replace
    {p : Path} {init tail : List String} {old new : String}
    (h : p.pieces.body = init ++ old :: tail) (hnew : isIdle new = false)
    (hslash : '/' ∉ new.toList) :
    (Pieces.toPath ⟨p.pieces.lead, init ++ [new]⟩).components =
      leadComponents p.pieces.lead ++ (init ++ [new]).filterMap component? := by
  have hall : ∀ s ∈ p.pieces.lead.toList ++ (init ++ [new]), '/' ∉ s.toList := by
    intro s hs
    rw [← List.append_assoc] at hs
    rcases List.mem_append.mp hs with hs | hs
    · apply slash_not_mem_of_mem_pieces (p := p)
      rw [h, ← List.append_assoc]
      exact List.mem_append_left _ hs
    · exact List.mem_singleton.mp hs ▸ hslash
  have hdivided : Pieces.ofList (Text.splitOn "/" p.text) =
      ⟨p.pieces.lead, init ++ old :: tail⟩ := by
    rw [← h]
    rfl
  have hpieces : (Pieces.toPath ⟨p.pieces.lead, init ++ [new]⟩).pieces =
      ⟨p.pieces.lead, init ++ [new]⟩ :=
    pieces_toPath (by simp) hall (Pieces.ofList_replace hdivided hnew)
  rw [components, hpieces]

/-- Giving a file name the extension of a page changes the last component alone. -/
theorem components_withExtension
    {p : Path} {name : String} (h : p.fileName? = some name) :
    (p.withExtension "md").components = p.components.dropLast ++ [.name (pageName name)] := by
  obtain ⟨init, tail, hbody, hsettle, hcomponents⟩ := exists_pieces_of_fileName? h
  have hactive := (component?_eq_name_iff.mp (component?_pageName name)).2.1
  have hpath : p.withExtension "md" =
      Pieces.toPath ⟨p.pieces.lead, init ++ [pageName name]⟩ := by
    simp only [withExtension, h, hsettle, List.dropLast_concat,
      if_neg (show ("md" : String) ≠ "" by decide)]
    rfl
  have hname : '/' ∉ name.toList := slash_not_mem_of_mem_pieces (p := p) (by simp [hbody])
  rw [hpath, components_replace hbody hactive (slash_not_mem_pageName hname), hcomponents,
    List.dropLast_concat, List.filterMap_append, ← List.append_assoc]
  simp [component?_pageName]

theorem withExtension_of_fileName?_none
    {p : Path} (h : p.fileName? = none) (extension : String) : p.withExtension extension = p := by
  simp [withExtension, h]

theorem components_withExtension_ne_nil {p : Path} (h : p.text ≠ "") :
    (p.withExtension "md").components ≠ [] := by
  cases hfile : p.fileName? with
  | none =>
      rw [withExtension_of_fileName?_none hfile]
      exact components_ne_nil h
  | some name =>
      rw [components_withExtension hfile]
      simp

/-! ## The steps of a path -/

theorem pieces_lead_cases (p : Path) :
    p.pieces.lead = none ∨ p.pieces.lead = some "" ∨ p.pieces.lead = some "." := by
  unfold pieces Pieces.ofList
  split <;> simp

/-- Whether a component leads away from where it stands. -/
def Component.moves : Component → Bool
  | .up | .name _ => true
  | .root | .here => false

theorem moves_of_component? {piece : String} {c : Component} (h : component? piece = some c) :
    c.moves = true ∧ c.text = piece := by
  unfold component? at h
  split_ifs at h with hidle hup <;> cases h
  · exact ⟨rfl, hup.symm⟩
  · exact ⟨rfl, rfl⟩

theorem filter_moves_components (p : Path) :
    p.components.filter Component.moves = steps p.text := by
  have hlead : (leadComponents p.pieces.lead).filter Component.moves = [] := by
    rcases pieces_lead_cases p with h | h | h <;> rw [h] <;> rfl
  have hidle : p.pieces.lead.toList.filterMap component? = [] := by
    rcases pieces_lead_cases p with h | h | h <;> rw [h] <;> decide +kernel
  have hbody : (p.pieces.body.filterMap component?).filter Component.moves =
      p.pieces.body.filterMap component? := by
    rw [List.filter_eq_self]
    intro c hc
    obtain ⟨piece, -, hpiece⟩ := List.mem_filterMap.mp hc
    exact (moves_of_component? hpiece).1
  have hsplit : Text.splitOn "/" p.text = p.pieces.lead.toList ++ p.pieces.body :=
    (Pieces.toList_ofList _).symm
  rw [components, List.filter_append, hlead, List.nil_append, hbody, steps, hsplit,
    List.filterMap_append, hidle, List.nil_append]

theorem map_text_steps (s : String) :
    (steps s).map Component.text = (Text.splitOn "/" s).filter fun piece => !isIdle piece := by
  rw [steps]
  induction Text.splitOn "/" s with
  | nil => rfl
  | cons piece pieces ih =>
      cases hpiece : component? piece with
      | none =>
          have hidle := component?_eq_none_iff.mp hpiece
          rw [List.filterMap_cons_none hpiece, ih, List.filter_cons_of_neg (by simp [hidle])]
      | some c =>
          have hactive : isIdle piece = false := by
            rw [← Bool.not_eq_true, ← component?_eq_none_iff, hpiece]
            exact Option.some_ne_none c
          rw [List.filterMap_cons_some hpiece, List.map_cons, ih, (moves_of_component? hpiece).2,
            List.filter_cons_of_pos (by simp [hactive])]

theorem isAbsolute_iff_root_mem (p : Path) :
    p.isAbsolute = true ↔ Component.root ∈ p.components := by
  rw [isAbsolute_iff]
  constructor
  · rintro ⟨s, hs⟩
    obtain ⟨text⟩ := p
    subst hs
    rw [components_absolute]
    exact List.mem_cons_self
  · intro hroot
    have hlead : Component.root ∈ leadComponents p.pieces.lead := by
      refine (List.mem_append.mp hroot).resolve_right fun hbody => ?_
      obtain ⟨piece, -, hpiece⟩ := List.mem_filterMap.mp hbody
      exact Bool.false_ne_true (moves_of_component? hpiece).1
    have hsplit : ∃ piece rest, Text.splitOn "/" p.text = "" :: piece :: rest := by
      unfold pieces Pieces.ofList at hlead
      split at hlead
      · next piece rest heq => exact ⟨piece, rest, heq⟩
      · simp [leadComponents] at hlead
      · simp [leadComponents] at hlead
    obtain ⟨piece, rest, hsplit⟩ := hsplit
    refine ⟨Text.joinWith "/" (piece :: rest), ?_⟩
    rw [← Text.joinWith_splitOn_slash p.text, hsplit]
    rfl

theorem components_eq_nil_iff {p : Path} : p.components = [] ↔ p.text = "" := by
  constructor
  · intro h
    by_contra hne
    exact components_ne_nil hne h
  · obtain ⟨text⟩ := p
    rintro rfl
    decide +kernel

theorem parent?_of_settle
    {p : Path} {init : List String} {last : String} (h : p.pieces.settle.body = init ++ [last]) :
    p.parent? = some (Pieces.toPath ⟨p.pieces.lead, init.rdropWhile isIdle⟩) := by
  rw [parent?]
  simp only [h]
  rw [if_neg (by simp), List.dropLast_concat]
  rfl

/-- The directory of a path that ends in a name has the components before that name. -/
theorem exists_parent?_of_fileName?
    {p : Path} {name : String} (h : p.fileName? = some name) :
    ∃ dir, p.parent? = some dir ∧ p.components = dir.components ++ [.name name] := by
  obtain ⟨init, tail, hbody, hsettle, hcomponents⟩ := exists_pieces_of_fileName? h
  have hkept : (init.rdropWhile isIdle).filterMap component? = init.filterMap component? :=
    filterMap_component?_settle ⟨p.pieces.lead, init⟩
  have hdir : (Pieces.toPath ⟨p.pieces.lead, init.rdropWhile isIdle⟩).components =
      leadComponents p.pieces.lead ++ (init.rdropWhile isIdle).filterMap component? := by
    rcases List.eq_nil_or_concat (init.rdropWhile isIdle) with hnil | ⟨front, last, hlast⟩
    · -- Nothing is left but the lead.
      rw [hnil]
      rcases pieces_lead_cases p with hlead | hlead | hlead <;> rw [hlead] <;> decide +kernel
    · rw [List.concat_eq_append] at hlast
      obtain ⟨hactive, between, hinit⟩ := exists_of_rdropWhile_isIdle hlast
      have hplace : p.pieces.body = front ++ last :: (between ++ name :: tail) := by
        rw [hbody, hinit, List.append_assoc, List.cons_append]
      have hslash : '/' ∉ last.toList := slash_not_mem_of_mem_pieces (p := p) (by simp [hplace])
      rw [hlast, components_replace hplace hactive hslash]
  refine ⟨_, parent?_of_settle hsettle, ?_⟩
  rw [hcomponents, hdir, hkept]

/-! ## Paths below a directory -/

/-- The path leads through names only, and through at least one: taken from a directory, it leads
to a place below it. -/
def IsBelow (p : Path) : Prop :=
  p.components ≠ [] ∧ ∀ c ∈ p.components, ∃ name, c = .name name

theorem isBelow_of_components
    {p : Path} {names : List String} (h : p.components = names.map .name) (hne : names ≠ []) :
    p.IsBelow := by
  unfold IsBelow
  rw [h]
  refine ⟨by simpa using hne, ?_⟩
  intro c hc
  obtain ⟨name, -, rfl⟩ := List.mem_map.mp hc
  exact ⟨name, rfl⟩

theorem isBelow_withExtension_iff (p : Path) : (p.withExtension "md").IsBelow ↔ p.IsBelow := by
  cases h : p.fileName? with
  | none => rw [withExtension_of_fileName?_none h]
  | some name =>
      obtain ⟨front, hcomponents⟩ := fileName?_eq_some_iff.mp h
      unfold IsBelow
      rw [components_withExtension h, hcomponents, List.dropLast_concat]
      simp [or_imp, forall_and]

theorem IsBelow.isAbsolute_eq_false {p : Path} (h : p.IsBelow) : p.isAbsolute = false := by
  rw [← Bool.not_eq_true, isAbsolute_iff_root_mem]
  intro hroot
  obtain ⟨name, hname⟩ := h.2 _ hroot
  cases hname

theorem IsBelow.components_eq_steps {p : Path} (h : p.IsBelow) : p.components = steps p.text := by
  rw [← filter_moves_components, eq_comm, List.filter_eq_self]
  intro c hc
  obtain ⟨name, rfl⟩ := h.2 c hc
  rfl

/-- Taken from any directory, such a path goes on below it. -/
theorem IsBelow.components_join
    {page : Path} (h : page.IsBelow) (dir : Path) :
    (dir.join page).components = dir.components ++ page.components := by
  obtain ⟨text⟩ := dir
  by_cases htext : text = ""
  · subst htext
    have hempty : components ⟨""⟩ = [] := by decide +kernel
    rw [join_of_empty, hempty, List.nil_append]
  · rw [Path.components_join htext h.isAbsolute_eq_false, h.components_eq_steps]

end MarkerDoc.Path
