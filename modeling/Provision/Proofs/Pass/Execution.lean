import Provision.Pass

/-!
# What an attempt at a target runs

An attempt runs the commands of a target one after another, until one of them does not exit
with 0. What is run and what comes of it depends on the shell and on the state of the world
alone, not on what has happened so far.

> `runAll_run`: commands are run in order, up to the first one that fails;
> `installTarget_run`: the same of a target, and nothing is run where a command is unknown.
-/

namespace Provision

/-! ## Steps -/

namespace Run

variable {σ α β : Type}

theorem run_pure (a : α) (w : World σ) : (pure a : Run σ α).run w = (a, w) := rfl

theorem run_bind (x : Run σ α) (f : α → Run σ β) (w : World σ) :
    (x >>= f).run w = (f (x.run w).1).run (x.run w).2 := rfl

theorem run_map (f : α → β) (x : Run σ α) (w : World σ) :
    (f <$> x).run w = (f (x.run w).1, (x.run w).2) := rfl

theorem run_note (e : Event) (w : World σ) :
    (note e : Run σ Unit).run w = ((), { w with events := w.events ++ [e] }) := rfl

/-- A command runs in the state of the world and leaves one event. -/
theorem run_exec (shell : Shell σ) (program command : String) (w : World σ) :
    (exec shell program command).run w =
      ((shell program command w.state).1,
        ⟨(shell program command w.state).2,
          w.events ++ [.ran program command (shell program command w.state).1]⟩) := rfl

end Run

/-! ## Executions -/

/-- A command that has been run: with which program, and how it ended. -/
structure Execution where
  program : String
  command : String
  result : RunResult

/-- Whether a command has exited with 0. -/
def Execution.Succeeded (e : Execution) : Prop := ∃ f, e.result = .ok f ∧ f.exitCode = 0

/-- The event of a command that is run. -/
def Execution.event (e : Execution) : Event := .ran e.program e.command e.result

/-- The command that an event has run. -/
def Event.execution? : Event → Option Execution
  | ran program command result => some ⟨program, command, result⟩
  | _ => none

/-- All commands that have been run, in order. -/
def World.executions {σ : Type} (w : World σ) : List Execution :=
  w.events.filterMap Event.execution?

/-- The runs of a world are found again among its events. -/
@[simp] theorem filterMap_execution? (runs : List Execution) :
    (runs.map Execution.event).filterMap Event.execution? = runs := by
  rw [List.filterMap_map]
  exact List.filterMap_some

/-- No outcome is reported exactly for a command that succeeds. -/
theorem classify_eq_none_iff (e : Execution) : classify e.result = none ↔ e.Succeeded := by
  rw [Execution.Succeeded]
  cases e.result with
  | error _ => simp [classify]
  | ok f =>
    by_cases h : f.exitCode = 0
    · simp [classify, h]
    · -- 1 and all other codes have an outcome
      simp only [classify, h, if_false]
      split <;> simp [h]

/-- What the end of a command that is not successful says of a target: exit 1 that it is not
installed, with the output of the command; any other code that there is an error, with what the
command has complained of; and so does a command that could not be started, with the reason. -/
inductive FailsWith : RunResult → Outcome → Prop
  | notInstalled {f : Finished} (one : f.exitCode = 1) :
      FailsWith (.ok f) ⟨.notInstalled, f.stdout⟩
  | error {f : Finished} (notZero : f.exitCode ≠ 0) (notOne : f.exitCode ≠ 1) :
      FailsWith (.ok f) ⟨.error, Text.trim f.stderr⟩
  | unstarted (e : SpawnError) : FailsWith (.error e) ⟨.error, e.message⟩

/-- The outcome that is reported is the one with which the result fails. -/
theorem classify_eq_some_iff {result : RunResult} {o : Outcome} :
    classify result = some o ↔ FailsWith result o := by
  constructor
  · intro h
    cases result with
    | error e =>
      obtain rfl := Option.some.inj h
      exact .unstarted e
    | ok f =>
      rw [classify] at h
      split at h
      · simp at h
      next hzero =>
        split at h
        next hone =>
          obtain rfl := Option.some.inj h
          exact .notInstalled hone
        next hother =>
          obtain rfl := Option.some.inj h
          exact .error hzero hother
  · intro h
    cases h with
    | notInstalled one => simp [classify, one]
    | error notZero notOne => simp [classify, notZero, notOne]
    | unstarted e => rfl

theorem FailsWith.not_succeeded {e : Execution} {o : Outcome} (h : FailsWith e.result o) :
    ¬ e.Succeeded := by
  rw [← classify_eq_none_iff, classify_eq_some_iff.mpr h]
  simp

/-- A shell that counts the commands. One of them ends with 2, all others end with 0. -/
def Shell.stumbling (bad : String) : Shell Nat := fun _ command n =>
  (.ok ⟨if command = bad then 2 else 0, "", ""⟩, n + 1)

/-! ## Commands one after another -/

/-- Commands are run from one state of the world to another: up to the first one that does not
exit with 0, whose end is the outcome, or all of them. -/
inductive Shell.Runs {σ : Type} (shell : Shell σ) (program : String) :
    List String → σ → List Execution → Option Outcome → σ → Prop
  | done (st : σ) : Runs shell program [] st [] none st
  | stop {command : String} {rest : List String} {st st' : σ} {result : RunResult} {o : Outcome}
      (ends : shell program command st = (result, st')) (fails : classify result = some o) :
      Runs shell program (command :: rest) st [⟨program, command, result⟩] (some o) st'
  | next {command : String} {rest : List String} {st st' st'' : σ} {result : RunResult}
      {runs : List Execution} {o : Option Outcome}
      (ends : shell program command st = (result, st')) (succeeds : classify result = none)
      (goesOn : Runs shell program rest st' runs o st'') :
      Runs shell program (command :: rest) st (⟨program, command, result⟩ :: runs) o st''

namespace Shell.Runs

variable {σ : Type} {shell : Shell σ} {program : String} {commands : List String} {st st' : σ}
  {runs : List Execution} {o : Option Outcome}

/-- Nothing is run out of order. -/
theorem commands_isPrefix (h : shell.Runs program commands st runs o st') :
    runs.map Execution.command <+: commands := by
  induction h with
  | done => exact List.prefix_rfl
  | stop => exact List.prefix_append [_] _
  | next _ _ _ ih => exact (List.prefix_cons_inj _).mpr ih

/-- Without an outcome all commands have been run, and well. -/
theorem succeeded (h : shell.Runs program commands st runs none st') :
    runs.map Execution.command = commands ∧ ∀ e ∈ runs, e.Succeeded := by
  generalize hnone : (none : Option Outcome) = o at h
  induction h with
  | done => simp
  | stop => simp at hnone
  | @next command rest st st' st'' result runs o ends succeeds goesOn ih =>
    obtain ⟨hcommands, hall⟩ := ih hnone
    refine ⟨by rw [List.map_cons, hcommands], fun e he => ?_⟩
    rcases List.mem_cons.mp he with rfl | he
    · exact (classify_eq_none_iff _).mp succeeds
    · exact hall e he

end Shell.Runs

namespace Blueprint

variable {σ : Type} (b : Blueprint) (shell : Shell σ)

/-- A list of commands runs up to its first failure, whatever happened before. -/
theorem runAll_run : ∀ (commands : List String) (st : σ),
    ∃ runs o st', shell.Runs b.shell commands st runs o st' ∧ ∀ events,
      (b.runAll shell commands).run ⟨st, events⟩ =
        (o, ⟨st', events ++ runs.map Execution.event⟩) := by
  intro commands
  induction commands with
  | nil =>
    intro st
    refine ⟨[], none, st, .done st, fun events => ?_⟩
    rw [runAll, Run.run_pure, List.map_nil, List.append_nil]
  | cons command rest ih =>
    intro st
    rcases hends : shell b.shell command st with ⟨result, st'⟩
    have hfirst : ∀ events, (b.run shell command).run ⟨st, events⟩ =
        (classify result, ⟨st', events ++ [.ran b.shell command result]⟩) := by
      intro events
      simp only [Blueprint.run, Run.run_map, Run.run_exec, hends]
    -- the end of the first command decides whether the others are run
    cases hclass : classify result with
    | some o =>
      refine ⟨_, _, _, .stop hends hclass, fun events => ?_⟩
      rw [runAll, Run.run_bind, hfirst, hclass]
      rfl
    | none =>
      obtain ⟨runs, o, st'', hruns, hrest⟩ := ih st'
      refine ⟨_, _, _, .next hends hclass hruns, fun events => ?_⟩
      rw [runAll, Run.run_bind, hfirst, hclass]
      simp only [hrest, List.map_cons, Execution.event, List.append_assoc, List.singleton_append]

/-- What comes of an attempt at a target: nothing is run where a command is unknown, else the
commands are run in order. -/
inductive Attempts (target : String) : σ → List Execution → Option Outcome → σ → Prop
  | unresolved {e : ResolveError} (st : σ) (unknown : b.installCommands target = .error e) :
      Attempts target st [] (some e.outcome) st
  | run {commands : List String} {st st' : σ} {runs : List Execution} {o : Option Outcome}
      (known : b.installCommands target = .ok commands)
      (ran : shell.Runs b.shell commands st runs o st') : Attempts target st runs o st'

namespace Attempts

variable {b : Blueprint} {shell : Shell σ} {target : String} {st st' : σ} {runs : List Execution}
  {o : Option Outcome}

/-- What is run are commands of the target, from the first one on. -/
theorem commands_isPrefix (h : b.Attempts shell target st runs o st') {e : Execution}
    (he : e ∈ runs) : ∃ commands, b.installCommands target = .ok commands ∧
      runs.map Execution.command <+: commands := by
  cases h with
  | unresolved => simp at he
  | run known ran => exact ⟨_, known, ran.commands_isPrefix⟩

/-- Without an outcome all commands of the target have been run, and well. -/
theorem succeeded (h : b.Attempts shell target st runs none st') :
    b.installCommands target = .ok (runs.map Execution.command) ∧ ∀ e ∈ runs, e.Succeeded := by
  cases h with
  | run known ran =>
    obtain ⟨hcommands, hall⟩ := ran.succeeded
    exact ⟨by rw [hcommands, known], hall⟩

end Attempts

/-- An installation is an attempt: an error before anything is run, or the runs of its commands.
-/
theorem installTarget_run (target : String) (st : σ) :
    ∃ runs o st', b.Attempts shell target st runs o st' ∧ ∀ events,
      (b.installTarget shell target).run ⟨st, events⟩ =
        (o, ⟨st', events ++ runs.map Execution.event⟩) := by
  rw [installTarget]
  split
  next commands hknown =>
    obtain ⟨runs, o, st', hruns, hrun⟩ := b.runAll_run shell commands st
    exact ⟨runs, o, st', .run hknown hruns, hrun⟩
  next e hunknown =>
    refine ⟨[], _, st, .unresolved st hunknown, fun events => ?_⟩
    rw [Run.run_pure, List.map_nil, List.append_nil]

/-- An attempt at a target in a state of the world: its outcome, and what it runs. -/
def attempt (target : String) (st : σ) : Option Outcome × List Execution :=
  let (o, w) := (b.installTarget shell target).run { state := st }
  (o, w.executions)

/-- An attempt does not depend on what has happened before. -/
theorem attempt_run (target : String) (w : World σ) : ∃ st',
    b.Attempts shell target w.state (b.attempt shell target w.state).2
      (b.attempt shell target w.state).1 st' ∧
    (b.installTarget shell target).run w = ((b.attempt shell target w.state).1,
      ⟨st', w.events ++ (b.attempt shell target w.state).2.map Execution.event⟩) := by
  obtain ⟨runs, o, st', hattempts, hrun⟩ := b.installTarget_run shell target w.state
  have hattempt : b.attempt shell target w.state = (o, runs) := by
    simp only [attempt, hrun [], World.executions, List.nil_append, filterMap_execution?]
  rw [hattempt]
  exact ⟨st', hattempts, hrun w.events⟩

end Blueprint

end Provision
