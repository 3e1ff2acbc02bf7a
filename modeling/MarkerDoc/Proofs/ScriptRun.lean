import MarkerDoc.Proofs.Text
import MarkerDoc.TestRun.Process

/-!
# What comes of running a script

Nothing is assumed here about the host that a script is run on: each of its actions may answer
anything, depending on everything that happened before.  Whatever it answers, the run of a script
ends in one of five ways, and only an empty command ends in the last of them.
-/

namespace MarkerDoc

/-- Whatever the state, the result of an action has a property. -/
def Always {σ α : Type} (P : α → Prop) (x : StateM σ α) : Prop :=
  ∀ s, P (x.run s).1

section

variable {σ α β : Type} {P : β → Prop}

theorem Always.pure {b : β} (h : P b) : Always P (Pure.pure b : StateM σ β) :=
  fun _ => h

theorem Always.bind {x : StateM σ α} {f : α → StateM σ β} (h : ∀ a, Always P (f a)) :
    Always P (x >>= f) :=
  fun s => h (x.run s).1 (x.run s).2

theorem Always.bind_of {Q : α → Prop} {x : StateM σ α} {f : α → StateM σ β} (hx : Always Q x)
    (h : ∀ a, Q a → Always P (f a)) : Always P (x >>= f) :=
  fun s => h (x.run s).1 (hx s) (x.run s).2

end

namespace Host

/-- How the run of a script can end. -/
inductive Ends (settings : TestSettings) (lib : Path) : Except TestError Exit → Prop
  | exit (exit : Exit) : Ends settings lib (.ok exit)
  | io (cause : FileError) : Ends settings lib (.error (.io cause))
  | timeout {seconds : Nat} (h : settings.timeout? = some seconds) :
      Ends settings lib (.error (.timeout seconds))
  | unavailable {file : Path} {program : String} {args : List String} (cause : SpawnError)
      (h : TestRun.commandLine settings.command lib file = program :: args) :
      Ends settings lib (.error (.runnerUnavailable program (.spawn cause)))
  | empty (h : settings.command = []) :
      Ends settings lib (.error (.runnerUnavailable "" .emptyCommand))

variable {σ : Type} (host : Host (StateM σ)) {settings : TestSettings} {lib : Path}

theorem ends_waitUntil (child : host.Child) {seconds : Nat} (h : settings.timeout? = some seconds)
    (elapsed : Nat) : Always (Ends settings lib) (host.waitUntil child seconds elapsed) := by
  -- Each look at the program that finds it running leaves less time than the one before.
  induction hleft : seconds * 1000 - elapsed using Nat.strong_induction_on generalizing elapsed with
  | _ left ih =>
      rw [waitUntil]
      refine .bind fun answer => ?_
      cases answer with
      | error cause => exact .pure (.io cause)
      | ok ended =>
          cases ended with
          | some exit => exact .pure (.exit exit)
          | none =>
              dsimp only
              split_ifs with hover
              · exact .bind fun _ => .bind fun _ => .pure (.timeout h)
              · refine .bind fun late => ih _ ?_ _ rfl
                unfold pollInterval
                omega

theorem ends_await (child : host.Child) :
    Always (Ends settings lib) (host.await settings.timeout? child) := by
  unfold await
  cases h : settings.timeout? with
  | none =>
      refine .bind fun answer => ?_
      cases answer with
      | error cause => exact .pure (.io cause)
      | ok exit => exact .pure (.exit exit)
  | some seconds => exact host.ends_waitUntil child h 0

theorem ends_runFile (script : Script) (file : Path) :
    Always (Ends settings lib) (host.runFile settings script lib file) := by
  unfold runFile
  refine .bind fun answer => ?_
  cases answer with
  | error cause => exact .pure (.io cause)
  | ok _ =>
      dsimp only
      cases h : TestRun.commandLine settings.command lib file with
      | nil => exact .pure (.empty (List.map_eq_nil_iff.mp h))
      | cons program args =>
          refine .bind fun started => ?_
          cases started with
          | error cause => exact .pure (.unavailable cause h)
          | ok child => exact host.ends_await child

theorem ends_runScript (script : Script) :
    Always (Ends settings lib) (host.runScript settings script lib) := by
  unfold runScript
  refine .bind fun answer => ?_
  cases answer with
  | error cause => exact .pure (.io cause)
  | ok file =>
      exact .bind_of (host.ends_runFile script file) fun _ h => .bind fun _ => .pure h

/-- A command that is not empty is never found to be. -/
theorem runScript_ne_emptyCommand
    (h : settings.command ≠ []) (script : Script) (s : σ) (program : String) :
    ((host.runScript settings script lib).run s).1 ≠
      .error (.runnerUnavailable program .emptyCommand) := by
  intro heq
  have hends : Ends settings lib _ := host.ends_runScript script s
  rw [heq] at hends
  cases hends with
  | empty hempty => exact h hempty

end Host

end MarkerDoc
