import MarkerDoc.Proofs.Bytes
import MarkerDoc.Proofs.ScriptRun
import MarkerDoc.Settings.Read

/-!
# Filling in the test command

Settings that are read or taken as they stand have a test command with a program and a placeholder
for the script.  The library root is filled in before the script.  No occurrence of one placeholder
shares a character with an occurrence of the other, so filling in the library root leaves every
placeholder for the script as it is, whatever the library root is, and the script is filled in
behind it.  Both are filled in as they are printed: a path whose bytes are no text stands there with
replacement characters.
-/

namespace MarkerDoc

namespace Text

/-! ## Pieces that are kept -/

/-- Texts whose occurrences share no character: neither begins inside the other. -/
structure Apart (old piece : List Char) : Prop where
  first : ∃ c tail, old = c :: tail ∧ c ∉ piece.tail
  second : ∃ c tail, piece = c :: tail ∧ c ∉ old.tail
  together : ¬ old <+: piece ∧ ¬ piece <+: old

section

variable {old new piece : List Char}

theorem infix_replaceFrom (hold : old ≠ []) (new : List Char) {cs : List Char} (h : old <:+: cs) :
    new <:+: replaceFrom old new 0 cs := by
  induction cs with
  | nil => exact absurd (List.infix_nil.mp h) hold
  | cons c cs ih =>
      rw [replaceFrom]
      split_ifs with hhere
      · exact (List.prefix_append _ _).isInfix
      · rw [isSome_afterLead?_iff] at hhere
        have htail := ih ((List.infix_cons_iff.mp h).resolve_left hhere)
        exact htail.trans (List.suffix_cons _ _).isInfix

/-- An occurrence in front of the piece ends in front of it. -/
theorem Apart.length_le
    (h : Apart old piece) {front rest : List Char} (hfront : front ≠ [])
    (hold : old <+: front ++ (piece ++ rest)) : old.length ≤ front.length := by
  rcases List.prefix_or_prefix_of_prefix hold (List.prefix_append front _) with hle | ⟨tail, rfl⟩
  · exact hle.length_le
  · -- Otherwise it would run into the piece, and it does not hold its first character.
    obtain ⟨c, others, hpiece, hc⟩ := h.second
    rw [List.prefix_append_right_inj, hpiece] at hold
    cases tail with
    | nil => simp
    | cons d tail =>
        obtain ⟨rfl, -⟩ := List.cons_prefix_cons.mp hold
        rw [List.tail_append_of_ne_nil hfront] at hc
        exact absurd (by simp) hc

theorem Apart.replaceFrom_append (h : Apart old piece) (new rest : List Char) :
    replaceFrom old new 0 (piece ++ rest) = piece ++ replaceFrom old new 0 rest := by
  obtain ⟨c, tail, rfl, hc⟩ := h.first
  obtain ⟨d, others, rfl, -⟩ := h.second
  have hstart : ¬ c :: tail <+: d :: others ++ rest := by
    intro hboth
    rcases List.prefix_or_prefix_of_prefix hboth (List.prefix_append _ rest) with hle | hle
    · exact h.together.1 hle
    · exact h.together.2 hle
  rw [List.cons_append, replaceFrom, if_neg (by rwa [isSome_afterLead?_iff])]
  exact congrArg (d :: ·) (replaceFrom_append_of_not_mem hc new rest)

/-- Replacing keeps the pieces that are apart from what is replaced.  The characters that still
belong to an occurrence just replaced end in front of the piece. -/
theorem Apart.infix_replaceFrom
    (h : Apart old piece) (new : List Char) {front : List Char} (rest : List Char) {n : Nat}
    (hn : n ≤ front.length) : piece <:+: replaceFrom old new n (front ++ (piece ++ rest)) := by
  induction front generalizing n with
  | nil =>
      obtain rfl := Nat.le_zero.mp hn
      rw [List.nil_append, h.replaceFrom_append]
      exact (List.prefix_append _ _).isInfix
  | cons c front ih =>
      cases n with
      | succ n => exact ih (Nat.le_of_succ_le_succ hn)
      | zero =>
          rw [List.cons_append, replaceFrom]
          split_ifs with hhere
          · rw [isSome_afterLead?_iff, ← List.cons_append] at hhere
            have hlength := h.length_le (List.cons_ne_nil c front) hhere
            rw [List.length_cons] at hlength
            exact (ih (by omega)).trans (List.suffix_append _ _).isInfix
          · exact (ih (Nat.zero_le _)).trans (List.suffix_cons _ _).isInfix

end

theorem infix_replace {old s : String} (hold : old ≠ "") (new : String)
    (h : old.toList <:+: s.toList) : new.toList <:+: (replace old new s).toList := by
  rw [replace, String.toList_ofList]
  exact infix_replaceFrom (by simpa using hold) new.toList h

theorem infix_replace_of_apart {old piece s : String} (happart : Apart old.toList piece.toList)
    (new : String) (h : piece.toList <:+: s.toList) :
    piece.toList <:+: (replace old new s).toList := by
  obtain ⟨front, rest, hs⟩ := h
  rw [replace, String.toList_ofList, ← hs, List.append_assoc]
  exact happart.infix_replaceFrom new.toList rest (Nat.zero_le _)

end Text

/-! ## Accepted settings -/

/-- Settings that a command may run with: read from a text, or the defaults. -/
def Settings.Accepted (s : Settings) : Prop :=
  (∃ text, Settings.parse text = .ok s) ∨ s = {}

/-- A test command that names a program and the script. -/
structure IsTemplate (command : List String) : Prop where
  program : ∃ program args, command = program :: args ∧ Text.isBlankText program = false
  script : ∃ arg ∈ command, scriptPlaceholder.toList <:+: arg.toList

theorem Settings.validate_eq_ok_iff {s s' : Settings} :
    s.validate = .ok s' ↔ s' = s ∧ IsTemplate s.test.command := by
  unfold Settings.validate
  cases hcommand : s.test.command with
  | nil =>
      refine iff_of_false (by simp) ?_
      rintro ⟨-, ⟨program, args, hcons, -⟩, -⟩
      cases hcons
  | cons program args =>
      have hscript : (program :: args).any (Text.contains scriptPlaceholder) = true ↔
          ∃ arg ∈ program :: args, scriptPlaceholder.toList <:+: arg.toList := by
        simp only [List.any_eq_true, Text.contains_iff]
      dsimp only
      split_ifs with hblank hany
      · refine iff_of_false (by simp) ?_
        rintro ⟨-, ⟨_, _, hcons, hprogram⟩, -⟩
        obtain ⟨rfl, -⟩ := List.cons.inj hcons
        simp [hblank] at hprogram
      · rw [Except.ok.injEq, eq_comm]
        exact (and_iff_left ⟨⟨program, args, rfl, by simpa using hblank⟩, hscript.mp hany⟩).symm
      · refine iff_of_false (by simp) ?_
        rintro ⟨-, -, hnamed⟩
        exact hany (hscript.mpr hnamed)

theorem Settings.Accepted.isTemplate {s : Settings} (h : s.Accepted) :
    IsTemplate s.test.command := by
  rcases h with ⟨text, hparse⟩ | rfl
  · unfold Settings.parse at hparse
    split at hparse
    · cases hparse
    · next read _ =>
        cases hvalid : read.validate with
        | error reason => simp [hvalid] at hparse
        | ok s' =>
            rw [hvalid] at hparse
            obtain rfl := Except.ok.inj hparse
            obtain ⟨rfl, htemplate⟩ := Settings.validate_eq_ok_iff.mp hvalid
            exact htemplate
  · exact (Settings.validate_eq_ok_iff.mp (by decide +kernel : ({} : Settings).validate = .ok {})).2

/-! ## Command lines -/

namespace TestRun

theorem apart_placeholders : Text.Apart libPlaceholder.toList scriptPlaceholder.toList where
  first := ⟨_, _, rfl, by decide⟩
  second := ⟨_, _, rfl, by decide⟩
  together := by decide

theorem script_infix_of_placeholder
    {arg : String} (h : scriptPlaceholder.toList <:+: arg.toList) (lib script : Path) :
    script.display.toList <:+: (Text.replace scriptPlaceholder script.display
      (Text.replace libPlaceholder lib.display arg)).toList :=
  Text.infix_replace (by decide) script.display
    (Text.infix_replace_of_apart apart_placeholders lib.display h)

end TestRun

theorem Path.display_eq_of_toText? {p : Path} {text : String} (h : p.toText? = some text) :
    p.display = text :=
  Bytes.toText_of_toText? h

namespace TestRun

/-- The command of accepted settings can be run for every library root and script, on every host: it
has an argument for each argument of the template, one of them with the script in it as it is
printed, and it is never found to be empty.  A script path that is a text is printed as it is. -/
theorem commandLine_of_accepted
    {s : Settings} (h : s.Accepted) (lib script : Path) :
    (commandLine s.test.command lib script).length = s.test.command.length ∧
      commandLine s.test.command lib script ≠ [] ∧
      (∃ arg ∈ commandLine s.test.command lib script,
        script.display.toList <:+: arg.toList ∧
        ∀ text, script.toText? = some text → text.toList <:+: arg.toList) ∧
      ∀ (σ : Type) (host : Host (StateM σ)) (test : Script) (state : σ) (program : String),
        ((host.runScript s.test test lib).run state).1 ≠
          .error (.runnerUnavailable program .emptyCommand) := by
  obtain ⟨⟨program, args, hcommand, -⟩, arg, harg, hplaceholder⟩ := h.isTemplate
  have hne : s.test.command ≠ [] := by simp [hcommand]
  have hscript := script_infix_of_placeholder hplaceholder lib script
  refine ⟨List.length_map _, by simpa [commandLine] using hne, ?_, ?_⟩
  · refine ⟨_, List.mem_map_of_mem harg, hscript, fun text htext => ?_⟩
    rw [← Path.display_eq_of_toText? htext]
    exact hscript
  · intro σ host test state
    exact host.runScript_ne_emptyCommand hne test state

/-- The library root may bring placeholders along, and the one for the script is filled in as
well. -/
theorem commandLine_of_accepted_placeholders_in_lib :
    let text := "[test]\ncommand = [\"sh\", \"-c\", \"prove -I\x7blib\x7d \x7bscript\x7d\"]\n"
    let s : Settings :=
      { test := { command := ["sh", "-c", "prove -I\x7blib\x7d \x7bscript\x7d"] } }
    let lib : Path := ⟨"\x7blib\x7d/\x7bscript\x7d"⟩
    Settings.parse text = .ok s ∧
      commandLine s.test.command lib ⟨"x.t"⟩ = ["sh", "-c", "prove -I\x7blib\x7d/x.t x.t"] ∧
      ∃ arg ∈ commandLine s.test.command lib ⟨"x.t"⟩, "x.t".toList <:+: arg.toList := by
  intro text s lib
  have hparse : Settings.parse text = .ok s := by decide +kernel
  obtain ⟨-, -, ⟨arg, harg, -, hscript⟩, -⟩ :=
    commandLine_of_accepted (.inl ⟨text, hparse⟩) lib ⟨"x.t"⟩
  exact ⟨hparse, by decide +kernel, arg, harg, hscript "x.t" (by decide +kernel)⟩

/-- A script path that is no text is filled in with a replacement character. -/
example : commandLine ["\x7bscript\x7d"] ⟨"."⟩ ⟨"/tmp/\u00ff/x.t"⟩ = ["/tmp/\ufffd/x.t"] := by
  decide +kernel

end TestRun

end MarkerDoc
