import MarkerDoc.Command
import MarkerDoc.Proofs.ScriptLayout

/-!
# Test runs

A runner may do anything to the state it works on, but its answer for a script and a library root is
taken to be a function of the two.  Under that assumption every selected module has one verdict, and
a run does nothing but record the verdicts in order: what was recorded stays, so no later result can
hide an earlier one.  The counts of the summary and the end of the command are read off the
verdicts.
-/

namespace MarkerDoc

namespace TestRun

/-- What a runner answers for a script and a library root. -/
abbrev Answer := Script → Path → Except TestError Finish

/-- The runner gives these answers, whatever else it does. -/
def Answers {σ : Type} (runner : Script → Path → StateM σ (Except TestError Finish))
    (answer : Answer) : Prop :=
  ∀ script lib s, ((runner script lib).run s).1 = answer script lib

/-- What can come of a module. -/
inductive Verdict where
  | untested
  | outcome (o : Outcome)
  | error (e : ModuleError)

namespace Verdict

def outcome? : Verdict → Option Outcome
  | .outcome o => some o
  | _ => none

def error? : Verdict → Option ModuleError
  | .error e => some e
  | _ => none

def isUntested : Verdict → Bool
  | .untested => true
  | _ => false

/-- Neither a failed outcome nor an error. -/
def IsHarmless : Verdict → Prop
  | .untested => True
  | .outcome o => o.status = .passed
  | .error _ => False

end Verdict

/-- A module is untested if it has no script.  Otherwise it gets the error of the runner, or an
outcome with the runner's status and the number of sub-tests of the script. -/
inductive Classified (answer : Answer) (m : Module) : Verdict → Prop
  | untested (hscript : Script.ofModule? m = none) : Classified answer m .untested
  | outcome {script : Script} {finish : Finish} (hscript : Script.ofModule? m = some script)
      (hanswer : answer script m.libraryRoot = .ok finish) :
      Classified answer m (.outcome {
        package := m.name
        path := m.path
        subtests := script.subtests.length
        status := finish.status
        millis := finish.millis })
  | error {script : Script} {error : TestError} (hscript : Script.ofModule? m = some script)
      (hanswer : answer script m.libraryRoot = .error error) :
      Classified answer m (.error { package := m.name, path := m.path, error })

/-- The module has no tests, or they pass. -/
def Succeeds (answer : Answer) (m : Module) : Prop :=
  ∀ script, Script.ofModule? m = some script →
    ∃ finish, answer script m.libraryRoot = .ok finish ∧ finish.status = .passed

/-- The script and the library root that a runner is called with for a module, if it is. -/
def call? (m : Module) : Option (Script × Path) :=
  (Script.ofModule? m).map fun script => (script, m.libraryRoot)

/-- What a list of calls leaves of a state. -/
def afterCalls {σ : Type} (runner : Script → Path → StateM σ (Except TestError Finish))
    (calls : List (Script × Path)) (s : σ) : σ :=
  calls.foldl (fun s call => ((runner call.1 call.2).run s).2) s

/-! ## Verdicts -/

section

variable {answer : Answer} {m : Module}

theorem existsUnique_classified (answer : Answer) (m : Module) :
    ∃! verdict, Classified answer m verdict := by
  cases hscript : Script.ofModule? m with
  | none =>
      refine ⟨_, .untested hscript, ?_⟩
      intro verdict h
      cases h <;> simp_all
  | some script =>
      cases hanswer : answer script m.libraryRoot with
      | ok finish =>
          refine ⟨_, .outcome hscript hanswer, ?_⟩
          intro verdict h
          cases h <;> simp_all
      | error error =>
          refine ⟨_, .error hscript hanswer, ?_⟩
          intro verdict h
          cases h <;> simp_all

theorem Classified.isHarmless_iff {verdict : Verdict} (h : Classified answer m verdict) :
    verdict.IsHarmless ↔ Succeeds answer m := by
  cases h with
  | untested hscript =>
      simp [Verdict.IsHarmless, Succeeds, hscript]
  | outcome hscript hanswer =>
      simp [Verdict.IsHarmless, Succeeds, hscript, hanswer]
  | error hscript hanswer =>
      simp [Verdict.IsHarmless, Succeeds, hscript, hanswer]

theorem exists_verdicts (answer : Answer) (modules : List Module) :
    ∃ verdicts, List.Forall₂ (Classified answer) modules verdicts := by
  induction modules with
  | nil =>
      exact ⟨[], .nil⟩
  | cons m modules ih =>
      obtain ⟨verdict, hverdict, -⟩ := existsUnique_classified answer m
      obtain ⟨verdicts, hverdicts⟩ := ih
      exact ⟨verdict :: verdicts, .cons hverdict hverdicts⟩

end

end TestRun

namespace Summary

open TestRun (Verdict)

/-! ## Recording verdicts -/

/-- Adds a verdict to a summary. -/
def record (s : Summary) : Verdict → Summary
  | .untested => s.addUntested
  | .outcome o => s.addOutcome o
  | .error e => s.addError e

/-- A summary holds what it held before and some verdicts, each in its own list. -/
structure Holds (before : Summary) (verdicts : List Verdict) (s : Summary) : Prop where
  outcomes : s.outcomes = before.outcomes ++ verdicts.filterMap Verdict.outcome?
  errors : s.errors = before.errors ++ verdicts.filterMap Verdict.error?
  untested : s.untested = before.untested + verdicts.countP Verdict.isUntested

theorem holds_foldl_record (before : Summary) (verdicts : List Verdict) :
    Holds before verdicts (verdicts.foldl record before) := by
  induction verdicts using List.reverseRecOn with
  | nil =>
      constructor <;> simp
  | append_singleton verdicts verdict ih =>
      have hlast : (verdicts ++ [verdict]).foldl record before =
          (verdicts.foldl record before).record verdict := by
        rw [List.foldl_append]
        rfl
      rw [hlast]
      obtain ⟨houtcomes, herrors, huntested⟩ := ih
      cases verdict with
      | untested =>
          constructor
          · simp [record, addUntested, List.filterMap_cons, Verdict.outcome?, houtcomes]
          · simp [record, addUntested, List.filterMap_cons, Verdict.error?, herrors]
          · simp [record, addUntested, Verdict.isUntested, huntested, Nat.add_assoc]
      | outcome o =>
          constructor
          · simp [record, addOutcome, Verdict.outcome?, houtcomes]
          · simp [record, addOutcome, List.filterMap_cons, Verdict.error?, herrors]
          · simp [record, addOutcome, Verdict.isUntested, huntested]
      | error e =>
          constructor
          · simp [record, addError, List.filterMap_cons, Verdict.outcome?, houtcomes]
          · simp [record, addError, Verdict.error?, herrors]
          · simp [record, addError, Verdict.isUntested, huntested]

theorem passed_add_failed (s : Summary) : s.passed + s.failed = s.outcomes.length := by
  have hle : s.passed ≤ s.outcomes.length := List.countP_le_length
  unfold failed
  omega

theorem allPassed_iff (s : Summary) :
    s.allPassed = true ↔ (∀ o ∈ s.outcomes, o.status = .passed) ∧ s.errors = [] := by
  have hfailed : s.failed = 0 ↔ s.passed = s.outcomes.length := by
    have hsum := s.passed_add_failed
    omega
  rw [allPassed, Bool.and_eq_true, beq_iff_eq, hfailed, passed, List.countP_eq_length,
    List.isEmpty_iff]
  simp [Outcome.passed]

section

variable {verdicts : List Verdict} {s : Summary}

theorem Holds.length_eq (h : Holds {} verdicts s) :
    s.outcomes.length + s.errors.length + s.untested = verdicts.length := by
  rw [h.outcomes, h.errors, h.untested]
  simp only [List.nil_append, Nat.zero_add]
  clear h
  induction verdicts with
  | nil =>
      rfl
  | cons verdict verdicts ih =>
      cases verdict <;>
        simp [List.filterMap_cons, List.countP_cons, Verdict.outcome?, Verdict.error?,
          Verdict.isUntested] <;> omega

theorem Holds.allPassed_iff (h : Holds {} verdicts s) :
    s.allPassed = true ↔ ∀ verdict ∈ verdicts, verdict.IsHarmless := by
  rw [Summary.allPassed_iff, h.outcomes, h.errors]
  simp only [List.nil_append, List.filterMap_eq_nil_iff, List.mem_filterMap]
  constructor
  · rintro ⟨houtcomes, herrors⟩ verdict hmem
    cases verdict with
    | untested => trivial
    | outcome o => exact houtcomes o ⟨_, hmem, rfl⟩
    | error e => exact absurd (herrors _ hmem) (by simp [Verdict.error?])
  · intro hharmless
    constructor
    · rintro o ⟨verdict, hmem, houtcome⟩
      have hverdict := hharmless verdict hmem
      cases verdict with
      | outcome o' =>
          obtain rfl := Option.some.inj houtcome
          exact hverdict
      | untested => cases houtcome
      | error e => cases houtcome
    · intro verdict hmem
      have hverdict := hharmless verdict hmem
      cases verdict with
      | untested => rfl
      | outcome o => rfl
      | error e => exact hverdict.elim

end

end Summary

namespace TestRun

/-! ## The run -/

section

variable {σ : Type} {runner : Script → Path → StateM σ (Except TestError Finish)} {answer : Answer}

/-- Running one module records its verdict, and calls the runner only for its script. -/
theorem run_runModule
    (hanswers : Answers runner answer) {m : Module} {verdict : Verdict}
    (hverdict : Classified answer m verdict) (summary : Summary) (s : σ) :
    (runModule runner summary m).run s =
      (summary.record verdict, afterCalls runner (call? m).toList s) := by
  cases hverdict with
  | untested hscript =>
      simp only [runModule, call?, hscript, afterCalls, Summary.record, Option.map_none,
        Option.toList_none, List.foldl_nil]
      rfl
  | @outcome script finish hscript hanswer =>
      have hfirst : ((runner script m.libraryRoot).run s).1 = .ok finish := by
        rw [hanswers, hanswer]
      have hpair : (runner script m.libraryRoot).run s =
          (.ok finish, ((runner script m.libraryRoot).run s).2) := Prod.ext hfirst rfl
      simp only [runModule, call?, hscript, StateT.run_bind, afterCalls, Option.map_some,
        Option.toList_some, List.foldl_cons, List.foldl_nil]
      rw [hpair, ← Script.package_ofModule? hscript]
      rfl
  | @error script error hscript hanswer =>
      have hfirst : ((runner script m.libraryRoot).run s).1 = .error error := by
        rw [hanswers, hanswer]
      have hpair : (runner script m.libraryRoot).run s =
          (.error error, ((runner script m.libraryRoot).run s).2) := Prod.ext hfirst rfl
      simp only [runModule, call?, hscript, StateT.run_bind, afterCalls, Option.map_some,
        Option.toList_some, List.foldl_cons, List.foldl_nil]
      rw [hpair]
      rfl

theorem run_foldlM_runModule
    (hanswers : Answers runner answer) {modules : List Module} {verdicts : List Verdict}
    (hverdicts : List.Forall₂ (Classified answer) modules verdicts) (summary : Summary) (s : σ) :
    (modules.foldlM (runModule runner) summary).run s =
      (verdicts.foldl Summary.record summary,
        afterCalls runner (modules.filterMap call?) s) := by
  induction hverdicts generalizing summary s with
  | nil =>
      rfl
  | @cons m verdict modules verdicts hverdict _ ih =>
      have hcalls : (m :: modules).filterMap call? =
          (call? m).toList ++ modules.filterMap call? := by
        cases hcall : call? m <;> simp [hcall]
      rw [List.foldlM_cons, StateT.run_bind, run_runModule hanswers hverdict, hcalls]
      simp only [List.foldl_cons, afterCalls, List.foldl_append]
      exact ih (summary.record verdict) _

end

theorem isSelected_iff (filter : Option String) (m : Module) :
    isSelected filter m = true ↔
      ∀ piece, filter = some piece → piece.toList <:+: m.name.toList := by
  cases filter with
  | none => simp [isSelected]
  | some piece => simp [isSelected, Text.contains_iff]

/-! ## The command -/

/-- What a run over some modules comes to: one verdict for each module, in order, all of them kept
in the summary, and one call of the runner for each script. -/
structure Accounts {σ : Type} (runner : Script → Path → StateM σ (Except TestError Finish))
    (answer : Answer) (modules : List Module) (s : σ) (result : Summary × σ) : Prop where
  classified : ∃ verdicts, List.Forall₂ (Classified answer) modules verdicts ∧
    Summary.Holds {} verdicts result.1
  called : result.2 = afterCalls runner (modules.filterMap call?) s
  counted : result.1.outcomes.length + result.1.errors.length + result.1.untested = modules.length
  divided : result.1.passed + result.1.failed = result.1.outcomes.length
  succeeded : result.1.allPassed = true ↔ ∀ m ∈ modules, Succeeds answer m

theorem forall_isHarmless_iff
    {answer : Answer} {modules : List Module} {verdicts : List Verdict}
    (h : List.Forall₂ (Classified answer) modules verdicts) :
    (∀ verdict ∈ verdicts, verdict.IsHarmless) ↔ ∀ m ∈ modules, Succeeds answer m := by
  induction h with
  | nil =>
      simp
  | cons hverdict _ ih =>
      simp [hverdict.isHarmless_iff, ih]

theorem accounts_runAll
    {σ : Type} {runner : Script → Path → StateM σ (Except TestError Finish)} {answer : Answer}
    (hanswers : Answers runner answer) (filter : Option String) (modules : List Module) (s : σ) :
    Accounts runner answer (modules.filter (isSelected filter)) s
      ((runAll runner filter modules).run s) := by
  obtain ⟨verdicts, hverdicts⟩ := exists_verdicts answer (modules.filter (isSelected filter))
  have hrun := run_foldlM_runModule hanswers hverdicts {} s
  have hholds : Summary.Holds {} verdicts (verdicts.foldl Summary.record {}) :=
    Summary.holds_foldl_record {} verdicts
  rw [runAll, hrun]
  constructor
  · exact ⟨verdicts, hverdicts, hholds⟩
  · rfl
  · rw [hholds.length_eq, hverdicts.length_eq]
  · exact Summary.passed_add_failed _
  · rw [hholds.allPassed_iff, forall_isHarmless_iff hverdicts]

end TestRun

namespace Summary

/-- A summary with nothing in it to report has nothing in it that failed. -/
theorem allPassed_of_isEmpty {s : Summary} (h : (s.outcomes.isEmpty && s.errors.isEmpty) = true) :
    s.allPassed = true := by
  obtain ⟨houtcomes, herrors⟩ := Bool.and_eq_true_iff.mp h
  rw [allPassed_iff, List.isEmpty_iff.mp houtcomes, List.isEmpty_iff.mp herrors]
  simp

end Summary

namespace Command

open TestRun (Accounts Answer Answers Succeeds isSelected)

variable {runner : Runner} {settings : Settings} {answer : Answer}

/-- Every selected module of the files has no tests or passes them. -/
def AllSucceed (answer : Answer) (settings : Settings) (filter : Option String) (d : Disk)
    (inputs : Inputs) : Prop :=
  ∀ m ∈ (d.collect settings.extract inputs.root inputs.files).modules,
    isSelected filter m = true → Succeeds answer m

theorem test_of_inputs
    (hanswers : Answers (runner settings) answer) (filter : Option String) {path : Path}
    {s : Session} {inputs : Inputs}
    (hinputs : s.disk.inputsFor settings.extract path none = .ok inputs) :
    (AllSucceed answer settings filter s.disk inputs ∧
        ∃ t, test runner settings path filter s = .ok t) ∨
      (¬ AllSucceed answer settings filter s.disk inputs ∧
        ∃ t, test runner settings path filter s = .error ⟨t, .testsFailed⟩) := by
  have hsucceeded := (TestRun.accounts_runAll hanswers filter
    (s.disk.collect settings.extract inputs.root inputs.files).modules s).succeeded
  unfold test
  simp only [hinputs, orFail, bind, Except.bind]
  generalize (TestRun.runAll (runner settings) filter
    (s.disk.collect settings.extract inputs.root inputs.files).modules).run s = result
    at hsucceeded ⊢
  obtain ⟨summary, t⟩ := result
  have hall : AllSucceed answer settings filter s.disk inputs ↔ summary.allPassed = true := by
    rw [hsucceeded]
    simp [AllSucceed, List.mem_filter]
  rw [hall]
  simp only
  split_ifs with hempty hpassed
  · exact .inl ⟨Summary.allPassed_of_isEmpty hempty, _, rfl⟩
  · exact .inl ⟨hpassed, _, rfl⟩
  · exact .inr ⟨hpassed, _, rfl⟩

/-- The command ends well exactly when it finds files and no selected module fails or errs. -/
theorem test_eq_ok_iff
    (hanswers : Answers (runner settings) answer) (path : Path) (filter : Option String)
    (s : Session) :
    (∃ t, test runner settings path filter s = .ok t) ↔
      ∃ inputs, s.disk.inputsFor settings.extract path none = .ok inputs ∧
        AllSucceed answer settings filter s.disk inputs := by
  cases hinputs : s.disk.inputsFor settings.extract path none with
  | error e =>
      simp [test, hinputs, orFail, failWith, bind, Except.bind]
  | ok inputs =>
      rcases test_of_inputs hanswers filter hinputs with ⟨hall, t, ht⟩ | ⟨hnot, t, ht⟩
      · simp [ht, hall]
      · simp [ht, hnot]

/-- A test run never hides a failure.  The selected modules are those whose names contain the
filter.  Each of them has one verdict and is accounted for once and in order, and the command ends
well exactly when none of them failed or erred, so that the order of the modules does not matter. -/
theorem test_never_masks_failure
    (hanswers : Answers (runner settings) answer) (filter : Option String) :
    (∀ m, isSelected filter m = true ↔
        ∀ piece, filter = some piece → piece.toList <:+: m.name.toList) ∧
      (∀ m, ∃! verdict, TestRun.Classified answer m verdict) ∧
      (∀ modules s, Accounts (runner settings) answer (modules.filter (isSelected filter)) s
        ((TestRun.runAll (runner settings) filter modules).run s)) ∧
      (∀ path s, (∃ t, test runner settings path filter s = .ok t) ↔
        ∃ inputs, s.disk.inputsFor settings.extract path none = .ok inputs ∧
          AllSucceed answer settings filter s.disk inputs) ∧
      (∀ path s inputs, s.disk.inputsFor settings.extract path none = .ok inputs →
        ¬ AllSucceed answer settings filter s.disk inputs →
          ∃ t, test runner settings path filter s = .error ⟨t, .testsFailed⟩) ∧
      ∀ path s inputs path' s' inputs',
        s.disk.inputsFor settings.extract path none = .ok inputs →
        s'.disk.inputsFor settings.extract path' none = .ok inputs' →
        (s'.disk.collect settings.extract inputs'.root inputs'.files).modules.Perm
          (s.disk.collect settings.extract inputs.root inputs.files).modules →
        ((∃ t, test runner settings path' filter s' = .ok t) ↔
          ∃ t, test runner settings path filter s = .ok t) := by
  refine ⟨TestRun.isSelected_iff filter, TestRun.existsUnique_classified answer,
    TestRun.accounts_runAll hanswers filter,
    fun path s => test_eq_ok_iff hanswers path filter s, ?_, ?_⟩
  · intro path s inputs hinputs hnot
    rcases test_of_inputs hanswers filter hinputs with ⟨hall, -⟩ | ⟨-, hfailed⟩
    · exact absurd hall hnot
    · exact hfailed
  · intro path s inputs path' s' inputs' hinputs hinputs' hperm
    have hsame : AllSucceed answer settings filter s'.disk inputs' ↔
        AllSucceed answer settings filter s.disk inputs := by
      unfold AllSucceed
      simp only [hperm.mem_iff]
    rw [test_eq_ok_iff hanswers, test_eq_ok_iff hanswers]
    simp [hinputs, hinputs', hsame]

/-- A module with one test. -/
def tested (package : String) : Module where
  path := ⟨package ++ ".pm"⟩
  package := { statement := "package " ++ package, description := "", line := 1 }
  items :=
    [{ kind := .routine (some "ok(f());"), statement := "sub f", description := "", line := 5 }]
  flavor := .core

/-- A package that fails is not hidden by one that passes after it, and makes the command fail. -/
theorem test_never_masks_failure_failing_first :
    let answer : Answer := fun script _ =>
      .ok { status := if script.package = "A" then .failed (some 1) else .passed }
    let runner : Runner := fun _ script lib => do
      modify (·.print script.source)
      pure (answer script lib)
    let disk : Disk :=
      { top := .file "A.pm" "package A;\n### ```\n### ok(f());\n### ```\nsub f;\n".toUTF8 .nil
        cwd := [] }
    Answers (runner {}) answer ∧
      (∀ s, ((TestRun.runAll (runner {}) none [tested "A", tested "B"]).run s).1.allPassed =
        false) ∧
      ∃ t, test runner {} ⟨"A.pm"⟩ none { disk } = .error ⟨t, .testsFailed⟩ := by
  intro answer runner disk
  have hanswers : Answers (runner {}) answer := fun _ _ _ => rfl
  have hfails : ∀ m, (Script.ofModule? m).map Script.package = some "A" →
      ¬ Succeeds answer m := by
    intro m hm hsucceeds
    obtain ⟨script, hscript, hpackage⟩ := Option.map_eq_some_iff.mp hm
    obtain ⟨finish, hfinish, hpassed⟩ := hsucceeds script hscript
    simp only [answer, hpackage, if_true, Except.ok.injEq] at hfinish
    rw [← hfinish] at hpassed
    cases hpassed
  obtain ⟨-, -, haccounts, -, hcommand, -⟩ := test_never_masks_failure hanswers none
  refine ⟨hanswers, ?_, ?_⟩
  · intro s
    rw [Bool.eq_false_iff, Ne, (haccounts [tested "A", tested "B"] s).succeeded]
    intro hall
    have hselected : tested "A" ∈ [tested "A", tested "B"].filter (isSelected none) := by
      simp [isSelected]
    exact hfails (tested "A") (by decide +kernel) (hall _ hselected)
  · have hinputs : disk.inputsFor {} ⟨"A.pm"⟩ none = .ok ⟨⟨"."⟩, [⟨"A.pm"⟩]⟩ := by decide +kernel
    apply hcommand ⟨"A.pm"⟩ { disk } _ hinputs
    intro hall
    have hmodules : (disk.collect {} ⟨"."⟩ [⟨"A.pm"⟩]).modules.map
        (fun m => (Script.ofModule? m).map Script.package) = [some "A"] := by decide +kernel
    obtain ⟨m, hm, hpackage⟩ : ∃ m ∈ (disk.collect {} ⟨"."⟩ [⟨"A.pm"⟩]).modules,
        (Script.ofModule? m).map Script.package = some "A" := by
      rw [← List.mem_map, hmodules]
      exact List.mem_singleton_self _
    exact hfails m hpackage (hall m hm rfl)

end Command

end MarkerDoc
