import MarkerDoc.Text.Basic
import Mathlib

/-!
# Laws of text

The operations on text are recursions on lists of characters.  This module ties them to the
operations that lists already have: leads to list prefixes, splitting and joining at a single
character to `List.splitOn` and `List.intercalate`, and trimming at the end to `List.rdropWhile`.
Later modules argue with those and do not open the recursions again.
-/

namespace MarkerDoc.Text

/-! ## Leads -/

theorem afterLead?_eq_some_iff
    {α : Type} [DecidableEq α] {lead cs rest : List α} :
    afterLead? lead cs = some rest ↔ cs = lead ++ rest := by
  induction lead generalizing cs with
  | nil =>
      simp [afterLead?]
  | cons l ls ih =>
      cases cs with
      | nil =>
          simp [afterLead?]
      | cons c cs =>
          by_cases heq : l = c
          · subst heq
            simp [afterLead?, ih]
          · have hne : c ≠ l := fun h => heq h.symm
            simp [afterLead?, heq, hne]

theorem afterLead?_append
    {α : Type} [DecidableEq α] (lead rest : List α) :
    afterLead? lead (lead ++ rest) = some rest :=
  afterLead?_eq_some_iff.mpr rfl

theorem isSome_afterLead?_iff
    {α : Type} [DecidableEq α] {lead cs : List α} :
    (afterLead? lead cs).isSome = true ↔ lead <+: cs := by
  rw [Option.isSome_iff_exists]
  constructor
  · rintro ⟨rest, hrest⟩
    exact ⟨rest, (afterLead?_eq_some_iff.mp hrest).symm⟩
  · rintro ⟨rest, hrest⟩
    exact ⟨rest, afterLead?_eq_some_iff.mpr hrest.symm⟩

theorem startsWith_iff (lead s : String) :
    startsWith lead s = true ↔ lead.toList <+: s.toList :=
  isSome_afterLead?_iff

@[simp] theorem stripStart?_append (lead rest : String) :
    stripStart? lead (lead ++ rest) = some rest := by
  simp [stripStart?, String.toList_append, afterLead?_append]

theorem contains_iff (piece s : String) :
    contains piece s = true ↔ piece.toList <:+: s.toList := by
  unfold contains
  induction s.toList with
  | nil =>
      simp [occursIn]
  | cons c cs ih =>
      rw [occursIn, Bool.or_eq_true, isSome_afterLead?_iff, ih, List.infix_cons_iff]

/-! ## Trimming -/

theorem take_length_takeWhile {α : Type} (p : α → Bool) (l : List α) :
    l.take (l.takeWhile p).length = l.takeWhile p :=
  (List.prefix_iff_eq_take.mp (List.takeWhile_prefix p)).symm

theorem drop_length_takeWhile (p : Char → Bool) (cs : List Char) :
    cs.drop (cs.takeWhile p).length = cs.dropWhile p := by
  conv_lhs => rw [← List.takeWhile_append_dropWhile (p := p) (l := cs)]
  exact List.drop_left' (by rw [List.takeWhile_append_dropWhile])

theorem trimStart_of_head?
    {s : String} {c : Char} (hhead : s.toList.head? = some c) (hc : isBlank c = false) :
    trimStart s = s := by
  obtain ⟨rest, hs⟩ := List.head?_eq_some_iff.mp hhead
  rw [trimStart, hs, List.dropWhile_cons_of_neg (by simp [hc]), ← hs, String.ofList_toList]

theorem trimStart_space (s : String) : trimStart (" " ++ s) = trimStart s := by
  have hspace : isBlank ' ' = true := by decide
  rw [trimStart, trimStart, String.toList_append]
  exact congrArg String.ofList (List.dropWhile_cons_of_pos hspace)

theorem dropEndWhile_eq_rdropWhile
    {α : Type} (p : α → Bool) (cs : List α) :
    dropEndWhile p cs = cs.rdropWhile p :=
  rfl

theorem dropEndWhile_of_getLast?
    {α : Type} {p : α → Bool} {cs : List α}
    (h : ∀ c, cs.getLast? = some c → p c = false) :
    dropEndWhile p cs = cs := by
  induction cs using List.reverseRecOn with
  | nil =>
      rfl
  | append_singleton cs c _ =>
      simp [dropEndWhile, h c (by simp)]

/-- A lead that stands after trimming at both ends stands after trimming at the start alone. -/
theorem startsWith_trimStart_of_trimEnd
    {lead s : String} (hlead : lead ≠ "")
    (h : startsWith lead (trimStart (trimEnd s)) = true) :
    startsWith lead (trimStart s) = true := by
  rw [startsWith_iff] at h ⊢
  simp only [trimStart, trimEnd, String.toList_ofList, dropEndWhile_eq_rdropWhile] at h ⊢
  obtain ⟨blanks, hblanks⟩ := List.rdropWhile_prefix isBlank s.toList
  rw [← hblanks, List.dropWhile_append]
  split
  · next hempty =>
      rw [List.isEmpty_iff.mp hempty] at h
      exact absurd (List.prefix_nil.mp h) (by simpa using hlead)
  · exact h.trans (List.prefix_append _ _)

/-! ## Joining and splitting -/

theorem joinWith_eq_intercalate (separator : String) (pieces : List String) :
    joinWith separator pieces = separator.intercalate pieces := by
  fun_induction joinWith separator pieces with
  | case1 => simp
  | case2 s => simp
  | case3 s t rest ih => simp [ih]

/-- Splitting at a single character, with a piece under way, is `List.splitOn`. -/
theorem splitFrom_singleton (x : Char) (piece cs : List Char) :
    splitFrom [x] 0 piece cs = (cs.splitOn x).modifyHead (piece.reverse ++ ·) := by
  induction cs generalizing piece with
  | nil =>
      simp [splitFrom]
  | cons c cs ih =>
      rw [List.splitOn_cons_eq_if_modifyHead]
      by_cases heq : x = c
      · subst heq
        simp only [splitFrom, afterLead?, if_true, Option.isSome_some, List.length_singleton,
          Nat.sub_self, ih, beq_self_eq_true, List.modifyHead_cons, List.append_nil,
          List.cons.injEq, true_and]
        cases cs.splitOn x <;> simp
      · have hne : (c == x) = false := by simpa using fun h => heq h.symm
        simp only [splitFrom, afterLead?, heq, if_false, Option.isSome_none, ih, hne,
          Bool.false_eq_true]
        cases cs.splitOn x <;> simp

theorem splitOn_singleton (x : Char) (s : String) :
    splitOn (String.singleton x) s = (s.toList.splitOn x).map String.ofList := by
  unfold splitOn
  rw [String.toList_singleton, splitFrom_singleton]
  cases s.toList.splitOn x <;> simp

theorem splitOn_slash (s : String) :
    splitOn "/" s = (s.toList.splitOn '/').map String.ofList :=
  splitOn_singleton '/' s

theorem splitOn_slash_ne_nil (s : String) : splitOn "/" s ≠ [] := by
  simp [splitOn_slash]

/-- What splitting at slashes undoes: joining pieces that have no slash in them. -/
theorem splitOn_slash_joinWith
    {pieces : List String} (hne : pieces ≠ [])
    (hslash : ∀ p ∈ pieces, '/' ∉ p.toList) :
    splitOn "/" (joinWith "/" pieces) = pieces := by
  have hpieces : ∀ l ∈ pieces.map String.toList, '/' ∉ l := by
    simpa using hslash
  rw [splitOn_slash, joinWith_eq_intercalate, String.toList_intercalate]
  rw [show "/".toList = ['/'] from rfl,
    List.splitOn_intercalate '/' hpieces (by simpa using hne)]
  simp [Function.comp_def]

theorem joinWith_splitOn_slash (s : String) : joinWith "/" (splitOn "/" s) = s := by
  rw [← String.toList_inj, joinWith_eq_intercalate, String.toList_intercalate, splitOn_slash,
    List.map_map, show "/".toList = ['/'] from rfl]
  simp [Function.comp_def]

theorem joinWith_append
    (separator : String) {front back : List String} (hfront : front ≠ []) (hback : back ≠ []) :
    joinWith separator (front ++ back) =
      joinWith separator front ++ separator ++ joinWith separator back := by
  simp only [joinWith_eq_intercalate, String.intercalate_append_of_ne_nil hfront hback]

theorem mem_joinWith_of_mem
    {separator piece : String} {pieces : List String} (hpiece : piece ∈ pieces)
    {c : Char} (hc : c ∈ piece.toList) :
    c ∈ (joinWith separator pieces).toList := by
  fun_induction joinWith separator pieces with
  | case1 => simp at hpiece
  | case2 s =>
      rw [List.mem_singleton] at hpiece
      exact hpiece ▸ hc
  | case3 s t rest ih =>
      rw [String.toList_append, String.toList_append, List.mem_append, List.mem_append]
      rcases List.mem_cons.mp hpiece with rfl | hpiece
      · exact .inl (.inl hc)
      · exact .inr (ih hpiece)

theorem mem_of_mem_joinWith
    {separator : String} {pieces : List String} {c : Char}
    (h : c ∈ (joinWith separator pieces).toList) :
    c ∈ separator.toList ∨ ∃ piece ∈ pieces, c ∈ piece.toList := by
  fun_induction joinWith separator pieces with
  | case1 => simp at h
  | case2 s => exact .inr ⟨s, List.mem_cons_self, h⟩
  | case3 s t rest ih =>
      rw [String.toList_append, String.toList_append, List.mem_append, List.mem_append] at h
      rcases h with (hs | hseparator) | hrest
      · exact .inr ⟨s, List.mem_cons_self, hs⟩
      · exact .inl hseparator
      · rcases ih hrest with hseparator | ⟨piece, hpiece, hc⟩
        · exact .inl hseparator
        · exact .inr ⟨piece, List.mem_cons_of_mem _ hpiece, hc⟩

theorem mem_of_mem_splitOn_slash
    {s piece : String} (hpiece : piece ∈ splitOn "/" s) {c : Char} (hc : c ∈ piece.toList) :
    c ∈ s.toList := by
  rw [← joinWith_splitOn_slash s]
  exact mem_joinWith_of_mem hpiece hc

theorem splitOn_slash_append (s t : String) :
    splitOn "/" (s ++ "/" ++ t) = splitOn "/" s ++ splitOn "/" t := by
  simp only [splitOn_slash, String.toList_append]
  rw [show "/".toList = ['/'] from rfl, List.append_assoc, List.singleton_append,
    List.splitOn_append_cons_self, List.map_append]

theorem not_mem_of_mem_splitOn
    {x : Char} {cs piece : List Char} (h : piece ∈ cs.splitOn x) : x ∉ piece := by
  induction cs generalizing piece with
  | nil =>
      simp_all
  | cons c cs ih =>
      obtain ⟨first, others, hsplit⟩ :=
        List.exists_cons_of_ne_nil (List.splitOn_ne_nil x cs)
      rw [List.splitOn_cons_eq_if_modifyHead, hsplit] at h
      rw [hsplit] at ih
      split at h
      · rcases List.mem_cons.mp h with rfl | hrest
        · simp
        · exact ih hrest
      · next hc =>
          rcases List.mem_cons.mp h with rfl | hrest
          · have hne : x ≠ c := fun hx => hc (by simp [hx])
            simp [hne, ih (List.mem_cons_self ..)]
          · exact ih (List.mem_cons_of_mem _ hrest)

theorem slash_not_mem_of_mem_splitOn
    {s piece : String} (h : piece ∈ splitOn "/" s) : '/' ∉ piece.toList := by
  rw [splitOn_slash, List.mem_map] at h
  obtain ⟨cs, hcs, rfl⟩ := h
  simpa using not_mem_of_mem_splitOn hcs

theorem exists_splitFrom (separator : List Char) (n : Nat) (piece cs : List Char) :
    ∃ tail rest, splitFrom separator n piece cs = (piece.reverse ++ tail) :: rest := by
  induction cs generalizing n piece with
  | nil =>
      exact ⟨[], [], by cases n <;> simp [splitFrom]⟩
  | cons c cs ih =>
      cases n with
      | zero =>
          rw [splitFrom]
          split
          · exact ⟨[], _, by rw [List.append_nil]⟩
          · obtain ⟨tail, rest, hrest⟩ := ih 0 (c :: piece)
            exact ⟨c :: tail, rest, by simp [hrest]⟩
      | succ n =>
          rw [splitFrom]
          exact ih n piece

/-- Where no separator stands at the start, the first piece begins with the first character. -/
theorem exists_splitOn_of_ne
    {c : Char} {cs : List Char} {s : String} (hc : c ≠ ':') (hs : s.toList = c :: cs) :
    ∃ tail rest, splitOn "::" s = String.ofList (c :: tail) :: rest := by
  have hlead : afterLead? "::".toList (c :: cs) = none := by
    have hne : ':' ≠ c := hc.symm
    simp [afterLead?, hne]
  obtain ⟨tail, rest, hsplit⟩ := exists_splitFrom "::".toList 0 [c] cs
  refine ⟨tail, rest.map String.ofList, ?_⟩
  rw [splitOn, hs, splitFrom, hlead, Option.isSome_none, if_neg (by simp), hsplit, List.map_cons]
  rfl

/-! ## Replacing -/

/-- Nothing is replaced where the first character of it does not occur. -/
theorem replaceFrom_append_of_not_mem
    {c : Char} {tail cs : List Char} (h : c ∉ cs) (new rest : List Char) :
    replaceFrom (c :: tail) new 0 (cs ++ rest) = cs ++ replaceFrom (c :: tail) new 0 rest := by
  induction cs with
  | nil => rfl
  | cons d cs ih =>
      have hd : c ≠ d := List.ne_of_not_mem_cons h
      simp [replaceFrom, afterLead?, hd, ih (List.not_mem_of_not_mem_cons h)]

/-! ## Words -/

theorem wordsFrom_append
    {run : List Char} (hrun : ∀ c ∈ run, isBlank c = false) (word rest : List Char) :
    wordsFrom word (run ++ rest) = wordsFrom (run.reverse ++ word) rest := by
  induction run generalizing word with
  | nil =>
      rfl
  | cons c run ih =>
      have hc := hrun c (by simp)
      simp [wordsFrom, hc, ih fun d hd => hrun d (by simp [hd])]

theorem wordsFrom_head?
    (word : List Char) (hword : word ≠ []) (cs : List Char) :
    (wordsFrom word cs).head? = some (word.reverse ++ cs.takeWhile (!isBlank ·)) := by
  induction cs generalizing word with
  | nil =>
      simp [wordsFrom, hword]
  | cons c cs ih =>
      cases hc : isBlank c with
      | true => simp [wordsFrom, hc, hword]
      | false => simp [wordsFrom, hc, ih (c :: word) (by simp)]

theorem words_second
    {first : String} (hne : first ≠ "") (hfirst : ∀ c ∈ first.toList, isBlank c = false)
    {s : String} {c : Char} (hhead : s.toList.head? = some c) (hc : isBlank c = false) :
    (words (first ++ " " ++ s))[1]? =
      some (String.ofList (s.toList.takeWhile (!isBlank ·))) := by
  obtain ⟨rest, hs⟩ := List.head?_eq_some_iff.mp hhead
  have hspace : isBlank ' ' = true := by decide
  have hsplit : (first ++ " " ++ s).toList = first.toList ++ (' ' :: s.toList) := by simp
  have hwords : wordsFrom [] (first ++ " " ++ s).toList =
      first.toList :: wordsFrom [c] rest := by
    rw [hsplit, wordsFrom_append hfirst, hs]
    simp [wordsFrom, hspace, hc, hne]
  have hnext := wordsFrom_head? [c] (by simp) rest
  rw [words, hwords, List.map_cons, List.getElem?_cons_succ, List.getElem?_map,
    ← List.head?_eq_getElem?, hnext, hs]
  simp [hc]

/-! ## The last occurrence of a separator -/

/-- What follows the last occurrence of a separator: either there is none, or the text divides at
an occurrence behind which no other one begins. -/
theorem afterLastFrom_cases
    {separator : List Char} (hseparator : separator ≠ []) (best cs : List Char) :
    (¬ separator <:+: cs ∧ afterLastFrom separator best cs = best) ∨
      ∃ front, cs = front ++ separator ++ afterLastFrom separator best cs ∧
        ∀ front' rest, cs = front' ++ separator ++ rest → front'.length ≤ front.length := by
  induction cs generalizing best with
  | nil =>
      left
      exact ⟨fun h => hseparator (List.eq_nil_of_infix_nil h), rfl⟩
  | cons c cs ih =>
      rw [afterLastFrom]
      rcases ih ((afterLead? separator (c :: cs)).getD best) with ⟨hnone, heq⟩ | ⟨front, heq, hlast⟩
      · rw [heq]
        -- No occurrence begins behind the first character, so one at the first character is last.
        cases hlead : afterLead? separator (c :: cs) with
        | none =>
            left
            refine ⟨fun hinfix => ?_, rfl⟩
            rcases List.infix_cons_iff.mp hinfix with ⟨rest, hrest⟩ | hinfix
            · rw [← hrest, afterLead?_append] at hlead
              simp at hlead
            · exact hnone hinfix
        | some rest =>
            right
            refine ⟨[], by simpa using afterLead?_eq_some_iff.mp hlead, ?_⟩
            intro front' rest' hsplit
            cases front' with
            | nil => exact Nat.le_refl _
            | cons d front' =>
                have htail : cs = front' ++ separator ++ rest' := by
                  simpa using (List.cons.inj hsplit).2
                exact absurd ⟨front', rest', htail.symm⟩ hnone
      · right
        refine ⟨c :: front, congrArg (c :: ·) heq, ?_⟩
        intro front' rest' hsplit
        cases front' with
        | nil => exact Nat.zero_le _
        | cons d front' =>
            have htail : cs = front' ++ separator ++ rest' := by
              simpa using (List.cons.inj hsplit).2
            simpa using hlast front' rest' htail

end MarkerDoc.Text
