import MarkerDoc.DocBlock
import MarkerDoc.Proofs.Text

/-!
# Reading documentation blocks

What a block says is decided by its stripped lines: by the first one whether it holds a directive,
and otherwise by where the first fence opens and where it is closed.  Reading the lines one by one
divides them there: the laws here give the answer for lines whose fences are known.
-/

namespace MarkerDoc.DocBlock

/-- The text of a description: its lines joined, without the blank lines at either end. -/
theorem joinDescription_eq (lines : List String) :
    joinDescription lines =
      "\n".intercalate ((lines.dropWhile Text.isBlankText).rdropWhile Text.isBlankText) := by
  rw [joinDescription, Text.joinWith_eq_intercalate, Text.dropEndWhile_eq_rdropWhile]

/-! ## Fences -/

section

variable {description test : List String}

theorem Reading.step_before_text {l : Line} (h : isOpeningFence l.2 = false) :
    step ⟨.before, description, test⟩ l = ⟨.before, description ++ [l.2], test⟩ :=
  if_neg (by simp [h])

theorem Reading.step_before_fence {l : Line} (h : isOpeningFence l.2 = true) :
    step ⟨.before, description, test⟩ l = ⟨.opened l.1, description, test⟩ :=
  if_pos h

theorem Reading.step_opened_text {l : Line} (h : isClosingFence l.2 = false) (line : Nat) :
    step ⟨.opened line, description, test⟩ l = ⟨.opened line, description, test ++ [l.2]⟩ :=
  if_neg (by simp [h])

theorem Reading.step_opened_fence {l : Line} (h : isClosingFence l.2 = true) (line : Nat) :
    step ⟨.opened line, description, test⟩ l = ⟨.closed, description, test⟩ :=
  if_pos h

theorem foldl_step_before {lines : List Line} (h : ∀ l ∈ lines, isOpeningFence l.2 = false) :
    lines.foldl Reading.step ⟨.before, description, test⟩ =
      ⟨.before, description ++ lines.map (·.2), test⟩ := by
  induction lines generalizing description with
  | nil => simp
  | cons l lines ih =>
      obtain ⟨hl, hlines⟩ := List.forall_mem_cons.mp h
      rw [List.foldl_cons, Reading.step_before_text hl, ih hlines]
      simp

theorem foldl_step_opened
    {lines : List Line} (h : ∀ l ∈ lines, isClosingFence l.2 = false) (line : Nat) :
    lines.foldl Reading.step ⟨.opened line, description, test⟩ =
      ⟨.opened line, description, test ++ lines.map (·.2)⟩ := by
  induction lines generalizing test with
  | nil => simp
  | cons l lines ih =>
      obtain ⟨hl, hlines⟩ := List.forall_mem_cons.mp h
      rw [List.foldl_cons, Reading.step_opened_text hl, ih hlines]
      simp

theorem foldl_step_closed (lines : List Line) :
    lines.foldl Reading.step ⟨.closed, description, test⟩ =
      ⟨.closed, description ++ lines.map (·.2), test⟩ := by
  induction lines generalizing description with
  | nil => simp
  | cons l lines ih =>
      rw [List.foldl_cons, Reading.step, ih]
      simp

end

theorem foldl_step_of_opening
    {before inside : List Line} {opening : Line}
    (hbefore : ∀ l ∈ before, isOpeningFence l.2 = false)
    (hopening : isOpeningFence opening.2 = true) :
    (before ++ opening :: inside).foldl Reading.step {} =
      inside.foldl Reading.step ⟨.opened opening.1, before.map (·.2), []⟩ := by
  rw [List.foldl_append, foldl_step_before hbefore, List.foldl_cons,
    Reading.step_before_fence hopening]
  rfl

theorem ofLines_unfenced
    {lines : List Line} (h : ∀ l ∈ lines, isOpeningFence l.2 = false) :
    ofLines lines = .ok (.documented (joinDescription (lines.map (·.2))) none) := by
  rw [ofLines, foldl_step_before h]
  rfl

theorem ofLines_closed
    {before body after : List Line} {opening closing : Line}
    (hbefore : ∀ l ∈ before, isOpeningFence l.2 = false)
    (hopening : isOpeningFence opening.2 = true)
    (hbody : ∀ l ∈ body, isClosingFence l.2 = false)
    (hclosing : isClosingFence closing.2 = true) :
    ofLines (before ++ opening :: (body ++ closing :: after)) =
      .ok (.documented (joinDescription ((before ++ after).map (·.2)))
        (some (Text.joinWith "\n" (body.map (·.2))))) := by
  rw [ofLines, foldl_step_of_opening hbefore hopening, List.foldl_append, foldl_step_opened hbody,
    List.foldl_cons, Reading.step_opened_fence hclosing, foldl_step_closed, List.map_append]
  rfl

theorem ofLines_unclosed
    {before body : List Line} {opening : Line}
    (hbefore : ∀ l ∈ before, isOpeningFence l.2 = false)
    (hopening : isOpeningFence opening.2 = true)
    (hbody : ∀ l ∈ body, isClosingFence l.2 = false) :
    ofLines (before ++ opening :: body) = .error ⟨opening.1, .unterminatedFence⟩ := by
  rw [ofLines, foldl_step_of_opening hbefore hopening, foldl_step_opened hbody]
  rfl

theorem ofLines_ne_ignored (lines : List Line) : ofLines lines ≠ .ok .ignored := by
  rw [ofLines, Reading.result]
  cases (lines.foldl Reading.step {}).state <;> simp

/-! ## Directives -/

/-- The first stripped line is the directive that leaves an item out. -/
def OpensWithIgnore (lines : List CommentLine) (marker : Marker) : Prop :=
  ∃ line text rest, stripped lines marker = (line, text) :: rest ∧
    Text.trimEnd text = ignoreDirective

theorem classify_eq_ignored_iff (lines : List CommentLine) (marker : Marker) :
    classify lines marker = .ok .ignored ↔ OpensWithIgnore lines marker := by
  unfold classify OpensWithIgnore
  constructor
  · intro h
    split at h
    · simp at h
    · next line text rest hstripped =>
        simp only at h
        split_ifs at h with hignore
        · exact ⟨line, text, rest, hstripped, hignore⟩
        · exact absurd h (ofLines_ne_ignored _)
  · rintro ⟨line, text, rest, hstripped, hignore⟩
    simp [hstripped, hignore]

theorem startsWith_ignoreDirective :
    Text.startsWith directiveLead (Text.trimStart ignoreDirective) = true := by
  decide +kernel

/-- A block whose first line is no directive is read by its fences. -/
theorem classify_of_not_directive
    {lines : List CommentLine} {marker : Marker} {stripped' : List Line}
    (hstripped : stripped lines marker = stripped')
    (hfirst : ∀ l, stripped'.head? = some l →
      Text.startsWith directiveLead (Text.trimStart l.2) = false) :
    classify lines marker = ofLines stripped' := by
  unfold classify
  rw [hstripped]
  cases stripped' with
  | nil =>
      rfl
  | cons l rest =>
      have hlead : Text.startsWith directiveLead (Text.trimStart (Text.trimEnd l.2)) = false := by
        rw [← Bool.not_eq_true]
        intro h
        have hdirective := Text.startsWith_trimStart_of_trimEnd (by simp [directiveLead]) h
        exact Bool.false_ne_true ((hfirst l rfl).symm.trans hdirective)
      have hignore : Text.trimEnd l.2 ≠ ignoreDirective := by
        intro h
        rw [h] at hlead
        exact Bool.false_ne_true (hlead.symm.trans startsWith_ignoreDirective)
      simp only [if_neg hignore, hlead, Bool.false_eq_true, if_false]

end MarkerDoc.DocBlock
