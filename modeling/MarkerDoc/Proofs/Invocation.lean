import MarkerDoc.Invocation
import MarkerDoc.Proofs.Disk

/-!
# Values on the command line

A value that names a file is never empty: an option with an empty path is refused when it is read,
in whatever way it is written.
-/

namespace MarkerDoc.Request

/-- Every value that names a file is a path. -/
def Given.NamesPaths (g : Given) : Prop :=
  ∀ entry ∈ g.values, entry.1.takesPath = true → entry.2 ≠ ""

namespace Given.NamesPaths

variable {g g' : Given} {level : Level}

theorem empty : Given.NamesPaths {} := by
  simp [Given.NamesPaths]

theorem value? (h : g.NamesPaths) {f : Flag} (hf : f.takesPath = true) {value : String}
    (hvalue : g.value? f = some value) : value ≠ "" := by
  rw [Given.value?, Option.map_eq_some_iff] at hvalue
  obtain ⟨entry, hfound, rfl⟩ := hvalue
  have hflag : entry.1 = f := by simpa using List.find?_some hfound
  exact h entry (List.mem_of_find?_eq_some hfound) (hflag ▸ hf)

theorem record (h : g.NamesPaths) {f : Flag} {value : String}
    (hrecord : g.record f value = .ok g') : g'.NamesPaths := by
  unfold Given.record at hrecord
  split_ifs at hrecord with _ _ _ hempty
  cases hrecord
  intro entry hentry hpath
  rcases List.mem_append.mp hentry with hentry | hentry
  · exact h entry hentry hpath
  · obtain rfl := List.mem_singleton.mp hentry
    simpa [hpath] using hempty

theorem recordPlain (h : g.NamesPaths) {value : String}
    (hrecord : g.recordPlain level value = .ok g') : g'.NamesPaths := by
  unfold Given.recordPlain at hrecord
  split_ifs at hrecord
  cases hrecord
  exact h

theorem map_record (h : g.NamesPaths) {f : Flag} {value : String} {pending : Option Flag}
    (hrecord : (g.record f value).map (·, none) = .ok (g', pending)) : g'.NamesPaths := by
  cases hresult : g.record f value with
  | error i => simp [hresult, Except.map] at hrecord
  | ok found =>
      obtain ⟨rfl, -⟩ : found = g' ∧ none = pending := by
        simpa [hresult, Except.map] using hrecord
      exact h.record hresult

theorem shortGroup (h : g.NamesPaths) {cs : List Char} {pending : Option Flag}
    (hgroup : Request.shortGroup level g cs = .ok (g', pending)) : g'.NamesPaths := by
  induction cs generalizing g with
  | nil =>
      cases hgroup
      exact h
  | cons c cs ih =>
      rw [Request.shortGroup] at hgroup
      split at hgroup
      · cases hgroup
      · split_ifs at hgroup
        · split at hgroup
          · cases hgroup
            exact h
          · exact h.map_record hgroup
          · exact h.map_record hgroup
        · obtain ⟨next, hrecord, hrest⟩ := bind_eq_ok_iff.mp hgroup
          exact ih (h.record hrecord) hrest

theorem longOption (h : g.NamesPaths) {text : String} {pending : Option Flag}
    (hoption : Request.longOption level g text = .ok (g', pending)) : g'.NamesPaths := by
  unfold Request.longOption at hoption
  dsimp only at hoption
  split at hoption
  · cases hoption
  · split_ifs at hoption
    exact h.map_record hoption
  · split_ifs at hoption
    · cases hoption
      exact h
    · exact h.map_record hoption

theorem foldlM_recordPlain (h : g.NamesPaths) {args : List String}
    (hargs : args.foldlM (Given.recordPlain level) g = .ok g') : g'.NamesPaths := by
  induction args generalizing g with
  | nil =>
      cases hargs
      exact h
  | cons arg args ih =>
      rw [List.foldlM_cons] at hargs
      obtain ⟨next, hrecord, hrest⟩ := bind_eq_ok_iff.mp hargs
      exact ih (h.recordPlain hrecord) hrest

theorem readArgs (h : g.NamesPaths) {pending : Option Flag} {args : List String}
    {rest : Option (String × List String)}
    (hread : Request.readArgs level g pending args = .ok (g', rest)) : g'.NamesPaths := by
  induction args generalizing g pending with
  | nil =>
      rw [Request.readArgs] at hread
      split_ifs at hread
      cases hread
      exact h
  | cons arg args ih =>
      cases pending with
      | some f =>
          rw [Request.readArgs] at hread
          split_ifs at hread
          obtain ⟨next, hrecord, hrest⟩ := bind_eq_ok_iff.mp hread
          exact ih (h.record hrecord) hrest
      | none =>
          rw [Request.readArgs] at hread
          split at hread
          · cases hplain : args.foldlM (Given.recordPlain level) g with
            | error i => simp [hplain, Except.map] at hread
            | ok found =>
                obtain ⟨rfl, -⟩ : found = g' ∧ none = rest := by
                  simpa [hplain, Except.map] using hread
                exact h.foldlM_recordPlain hplain
          · split at hread
            · obtain ⟨⟨next, pending⟩, hoption, hrest⟩ := bind_eq_ok_iff.mp hread
              exact ih (h.longOption hoption) hrest
            · split_ifs at hread
              · obtain ⟨⟨next, pending⟩, hgroup, hrest⟩ := bind_eq_ok_iff.mp hread
                exact ih (h.shortGroup hgroup) hrest
              · cases hread
                exact h
              · obtain ⟨next, hrecord, hrest⟩ := bind_eq_ok_iff.mp hread
                exact ih (h.recordPlain hrecord) hrest

end Given.NamesPaths

theorem helpOn_ne_run (args : List String) (invocation : Invocation) :
    helpOn args ≠ .run invocation := by
  unfold helpOn
  split <;> nofun

theorem output_ne_empty_of_task
    {topic : HelpTopic} {g : Given} (hg : g.NamesPaths) {path output : Path}
    (h : task topic g = .doc path (some output)) : output.text ≠ "" := by
  unfold task at h
  split at h
  · rw [Task.doc.injEq, Option.map_eq_some_iff] at h
    obtain ⟨-, value, hvalue, rfl⟩ := h
    exact hg.value? rfl hvalue
  · cases h
  · cases h

/-- An output directory that is named on the command line is not the empty path. -/
theorem output_ne_empty
    {args : List String} {invocation : Invocation} (h : ofArgs args = .run invocation)
    {path output : Path} (htask : invocation.task = .doc path (some output)) :
    output.text ≠ "" := by
  unfold ofArgs at h
  split at h
  · next i _ => cases i <;> cases h
  · cases h
  · next command rest _ =>
      split at h
      · exact absurd h (helpOn_ne_run rest invocation)
      · split at h
        · cases h
        · split at h
          · next i _ => cases i <;> cases h
          · next hread =>
              cases h
              exact output_ne_empty_of_task (Given.NamesPaths.empty.readArgs hread) htask

end MarkerDoc.Request
