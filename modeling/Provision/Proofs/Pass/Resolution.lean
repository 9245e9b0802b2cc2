import Provision.Proofs.Pass.Execution
import Provision.Proofs.Pass.Procedure

/-!
# Commands are known before any of them is run

An installation may fail in two ways, and these are kept apart. If anything goes wrong with its
steps, at any position and in whatever recipe inside of recipes, nothing is run at all, and the
first thing that goes wrong is told. If nothing does, the commands of all steps are run one after
another, up to the first one that does not exit with 0.

> `exists_expand_error_iff`: a recipe has no commands exactly if something goes wrong inside it;
> `Shell.Runs.ends`: a run ends with the first command that fails, or after all of them;
> `installTarget_resolves_first`: what comes of an attempt at a target.
-/

namespace Provision

/-! ## What goes wrong at any depth -/

namespace Recipe

variable {index : RecipeIndex} {limit : Nat}

/-- Whether something goes wrong in a step of a recipe at some level of nesting: the step itself is
refused, or the recipe that it opens may not be entered any more, or something goes wrong in some
step of that recipe. -/
inductive GoesWrong (index : RecipeIndex) (limit : Nat) :
    Nat → Recipe → Bindings → Executable → Prop
  | refused {level : Nat} {r : Recipe} {b : Bindings} {step : Executable} {e : RecipeError}
      (refuses : Refuses index r b step e) : GoesWrong index limit level r b step
  | tooDeep {level : Nat} {r : Recipe} {b : Bindings} {i : Invocation} {inner : Recipe}
      {b' : Bindings} (opens : Opens index r b i inner b') (deep : limit < level + 1) :
      GoesWrong index limit level r b (.invocation i)
  | inside {level : Nat} {r : Recipe} {b : Bindings} {i : Invocation} {inner : Recipe}
      {b' : Bindings} {step : Executable} (opens : Opens index r b i inner b')
      (mem : step ∈ inner.setup) (wrong : GoesWrong index limit (level + 1) inner b' step) :
      GoesWrong index limit level r b (.invocation i)

/-- A command goes wrong when its template does. -/
theorem goesWrong_command_iff {level : Nat} {r : Recipe} {b : Bindings} {template : String} :
    GoesWrong index limit level r b (.command template) ↔
      ∃ e, Refuses index r b (.command template) e :=
  ⟨fun (.refused refuses) => ⟨_, refuses⟩, fun ⟨_, refuses⟩ => .refused refuses⟩

/-- An invocation goes wrong by itself, by nesting too deep, or in one of the steps inside. -/
theorem goesWrong_invocation_iff {level : Nat} {r : Recipe} {b : Bindings} {i : Invocation} :
    GoesWrong index limit level r b (.invocation i) ↔
      (∃ e, Refuses index r b (.invocation i) e) ∨
      ∃ inner b', Opens index r b i inner b' ∧ (limit < level + 1 ∨
        ∃ step ∈ inner.setup, GoesWrong index limit (level + 1) inner b' step) := by
  constructor
  · intro h
    cases h with
    | refused refuses => exact Or.inl ⟨_, refuses⟩
    | tooDeep opens deep => exact Or.inr ⟨_, _, opens, Or.inl deep⟩
    | inside opens mem wrong => exact Or.inr ⟨_, _, opens, Or.inr ⟨_, mem, wrong⟩⟩
  · rintro (⟨e, refuses⟩ | ⟨inner, b', opens, deep | ⟨step, mem, wrong⟩⟩)
    · exact .refused refuses
    · exact .tooDeep opens deep
    · exact .inside opens mem wrong

/-- A step has no commands exactly if something goes wrong in it, if the recipes below it have none
exactly if they may not be entered or something goes wrong in one of their steps. -/
theorem exists_expandStep_error_iff {levels level : Nat}
    (below : ∀ r b, (∃ e, expand index levels r b = .error e) ↔ limit < level + 1 ∨
      ∃ step ∈ r.setup, GoesWrong index limit (level + 1) r b step)
    {r : Recipe} {b : Bindings} {step : Executable} :
    (∃ e, expandStep index levels r b step = .error e) ↔ GoesWrong index limit level r b step := by
  cases step with
  | command template =>
    simp only [expandStep_command_eq_error_iff, goesWrong_command_iff]
  | invocation i =>
    simp only [expandStep_invocation_eq_error_iff, goesWrong_invocation_iff, ← below]
    constructor
    · rintro ⟨e, refuses | ⟨inner, b', opens, he⟩⟩
      · exact Or.inl ⟨e, refuses⟩
      · exact Or.inr ⟨inner, b', opens, e, he⟩
    · rintro (⟨e, refuses⟩ | ⟨inner, b', opens, e, he⟩)
      · exact ⟨e, Or.inl refuses⟩
      · exact ⟨e, Or.inr ⟨inner, b', opens, he⟩⟩

/-- **A recipe has no commands exactly if something goes wrong at some depth**: it may not be
entered, or something goes wrong in one of its steps. -/
theorem exists_expand_error_iff : ∀ {levels level : Nat}, level + levels = limit + 1 →
    ∀ (r : Recipe) (b : Bindings), (∃ e, expand index levels r b = .error e) ↔
      limit < level ∨ ∃ step ∈ r.setup, GoesWrong index limit level r b step := by
  intro levels
  -- where no levels are left, the limit is exceeded, and no recipe is entered any more
  induction levels with
  | zero =>
    intro level hlevel r b
    exact ⟨fun _ => Or.inl (by omega), fun _ => ⟨_, rfl⟩⟩
  | succ levels ih =>
    intro level hlevel r b
    have hentered : ¬ limit < level := by omega
    rw [expand_succ, or_iff_right hentered]
    simp only [expandSteps, map_eq_error_iff, exists_mapM_eq_error_iff,
      exists_expandStep_error_iff (ih (show level + 1 + levels = limit + 1 by omega))]

/-- There is a first thing that goes wrong exactly if anything does. -/
theorem exists_firstFailure_iff {level : Nat} {r : Recipe} {b : Bindings} (hlevel : level ≤ limit) :
    (∃ f, FirstFailure index limit level r b r.setup f) ↔
      ∃ step ∈ r.setup, GoesWrong index limit level r b step := by
  have hsum : level + (limit + 1 - level) = limit + 1 := by omega
  have hany : (∃ e, expand index (limit + 1 - level) r b = .error e) ↔ _ :=
    exists_expand_error_iff hsum r b
  rw [or_iff_right (Nat.not_lt.mpr hlevel)] at hany
  rw [← hany]
  simp only [expand_eq_error_iff limit _ level hsum]
  have hpos : 0 < limit + 1 - level := by omega
  constructor
  · rintro ⟨f, hf⟩
    exact ⟨f.error, Or.inr ⟨hpos, f, hf, rfl⟩⟩
  · rintro ⟨e, ⟨hzero, -⟩ | ⟨-, f, hf, -⟩⟩
    · omega
    · exact ⟨f, hf⟩

end Recipe

/-! ## Steps of targets -/

namespace Blueprint

variable {b : Blueprint} {step : Executable}

/-- Whether something goes wrong in a step of an installation: it invokes an unknown recipe, or the
arguments do not bind, or something goes wrong in some step of the recipe. -/
inductive GoesWrong (b : Blueprint) : Executable → Prop
  | unknown {i : Invocation} (unknown : b.recipes.get? i.recipe = none) :
      GoesWrong b (.invocation i)
  | binding {i : Invocation} {r : Recipe} {e : RecipeError}
      (known : b.recipes.get? i.recipe = some r) (refused : r.bind i.arguments = .error e) :
      GoesWrong b (.invocation i)
  | inside {i : Invocation} {r : Recipe} {values : Bindings} {inner : Executable}
      (known : b.recipes.get? i.recipe = some r) (bound : r.bind i.arguments = .ok values)
      (mem : inner ∈ r.setup) (wrong : Recipe.GoesWrong b.recipes 32 1 r values inner) :
      GoesWrong b (.invocation i)

/-- What is told of a step of an installation: the first thing that goes wrong in it. -/
inductive FailsFor (b : Blueprint) : Executable → RecipeError → Prop
  | unknown {i : Invocation} (unknown : b.recipes.get? i.recipe = none) :
      FailsFor b (.invocation i) (.unknownRecipe i.recipe)
  | binding {i : Invocation} {r : Recipe} {e : RecipeError}
      (known : b.recipes.get? i.recipe = some r) (refused : r.bind i.arguments = .error e) :
      FailsFor b (.invocation i) e
  | inside {i : Invocation} {r : Recipe} {values : Bindings} {f : Recipe.Failure}
      (known : b.recipes.get? i.recipe = some r) (bound : r.bind i.arguments = .ok values)
      (first : Recipe.FirstFailure b.recipes 32 1 r values r.setup f) :
      FailsFor b (.invocation i) f.error

/-- The errors of a step are those of the recipe that it invokes. -/
theorem stepCommands_eq_error_iff {e : ResolveError} :
    b.stepCommands step = .error e ↔ ∃ e', b.FailsFor step e' ∧ e = .recipe e' := by
  cases step with
  | command text => exact ⟨fun h => (nomatch h), fun ⟨_, h, _⟩ => (nomatch h)⟩
  | invocation i =>
    rw [stepCommands, mapError_eq_error_iff]
    refine exists_congr fun e' => and_congr ?_ eq_comm
    rw [Invocation.setupCommands, bind_eq_error_iff]
    simp only [Recipe.lookup_eq_error_iff, Recipe.lookup_eq_ok_iff,
      Recipe.setupCommands_eq_error_iff]
    constructor
    · rintro (⟨unknown, rfl⟩ | ⟨r, known, refused | ⟨values, bound, f, first, rfl⟩⟩)
      · exact .unknown unknown
      · exact .binding known refused
      · exact .inside known bound first
    · intro h
      cases h with
      | unknown unknown => exact Or.inl ⟨unknown, rfl⟩
      | binding known refused => exact Or.inr ⟨_, known, Or.inl refused⟩
      | inside known bound first => exact Or.inr ⟨_, known, Or.inr ⟨_, bound, _, first, rfl⟩⟩

/-- Something is told of a step exactly if something goes wrong in it, at whatever depth. -/
theorem exists_failsFor_iff : (∃ e, b.FailsFor step e) ↔ b.GoesWrong step := by
  constructor
  · rintro ⟨e, h⟩
    cases h with
    | unknown unknown => exact .unknown unknown
    | binding known refused => exact .binding known refused
    | inside known bound first =>
      obtain ⟨inner, mem, wrong⟩ := (Recipe.exists_firstFailure_iff (by decide)).mp ⟨_, first⟩
      exact .inside known bound mem wrong
  · intro h
    cases h with
    | unknown unknown => exact ⟨_, .unknown unknown⟩
    | binding known refused => exact ⟨_, .binding known refused⟩
    | inside known bound mem wrong =>
      obtain ⟨f, first⟩ := (Recipe.exists_firstFailure_iff (by decide)).mpr ⟨_, mem, wrong⟩
      exact ⟨_, .inside known bound first⟩

/-- A step has some error exactly when it goes wrong. -/
theorem exists_stepCommands_error_iff :
    (∃ e, b.stepCommands step = .error e) ↔ b.GoesWrong step := by
  rw [← exists_failsFor_iff]
  simp only [stepCommands_eq_error_iff]
  exact ⟨fun ⟨_, e', h, _⟩ => ⟨e', h⟩, fun ⟨e', h⟩ => ⟨_, e', h, rfl⟩⟩

variable {t : String} {p : Procedure}

/-- The commands of a target are those of its steps, one after the other. -/
theorem installCommands_of_get? (hp : b.procedures.get? t = some p) :
    b.installCommands t = (p.installSteps.mapM b.stepCommands).map List.flatten := by
  rw [installCommands, procedureOf, hp]
  show (p.installSteps.mapM b.stepCommands >>= fun parts => pure parts.flatten) = _
  cases p.installSteps.mapM b.stepCommands with
  | ok parts => rfl
  | error e => rfl

/-- If anything goes wrong with the steps of a target, its commands are not known, and the first
thing that goes wrong is told. -/
theorem exists_installCommands_eq_error (hp : b.procedures.get? t = some p)
    (hwrong : ∃ step ∈ p.installSteps, b.GoesWrong step) :
    ∃ step e, IsFirst b.GoesWrong p.installSteps step ∧ b.FailsFor step e ∧
      b.installCommands t = .error (.recipe e) := by
  simp only [← exists_stepCommands_error_iff] at hwrong
  obtain ⟨e, he⟩ := exists_mapM_eq_error_iff.mpr hwrong
  obtain ⟨step, hfirst, hstep⟩ := mapM_eq_error_iff.mp he
  obtain ⟨e', hfails, rfl⟩ := stepCommands_eq_error_iff.mp hstep
  refine ⟨step, e', (IsFirst.congr fun _ => exists_stepCommands_error_iff).mp hfirst, hfails, ?_⟩
  rw [installCommands_of_get? hp, he]
  rfl

/-- If nothing goes wrong with the steps of a target, its commands are known. -/
theorem exists_installCommands_eq_ok (hp : b.procedures.get? t = some p)
    (hright : ∀ step ∈ p.installSteps, ¬ b.GoesWrong step) :
    ∃ commands, b.installCommands t = .ok commands := by
  rw [installCommands_of_get? hp]
  cases hsteps : p.installSteps.mapM b.stepCommands with
  | ok parts => exact ⟨parts.flatten, rfl⟩
  | error e =>
    obtain ⟨step, hstep, he⟩ := exists_of_mapM_eq_error hsteps
    exact absurd (exists_stepCommands_error_iff.mp ⟨e, he⟩) (hright step hstep)

end Blueprint

/-! ## Commands one after another -/

/-- How a run of commands ends: after all of them, if all have exited with 0, or after the first one
that has not. -/
inductive Ends (commands : List String) : List Execution → Option Outcome → Prop
  | all {runs : List Execution} (all : runs.map Execution.command = commands)
      (succeeded : ∀ e ∈ runs, e.Succeeded) : Ends commands runs none
  | failed {before : List Execution} {last : Execution} {o : Outcome}
      (first : (before ++ [last]).map Execution.command <+: commands)
      (succeeded : ∀ e ∈ before, e.Succeeded) (fails : FailsWith last.result o) :
      Ends commands (before ++ [last]) (some o)

/-- A run that is complete has no failure, and one that ends early ends with it. -/
theorem Ends.eq_none_iff {commands : List String} {runs : List Execution} {o : Option Outcome}
    (h : Ends commands runs o) : o = none ↔ ∀ e ∈ runs, e.Succeeded := by
  cases h with
  | all _ succeeded => simpa using succeeded
  | @failed before last _ _ _ fails =>
    simp only [reduceCtorEq, false_iff]
    exact fun hall => fails.not_succeeded (hall last (by simp))

namespace Shell

variable {σ : Type} {shell : Shell σ} {program : String}

/-- Commands are run in a row, each in the state of the world that the one before has left. -/
inductive Performs (shell : Shell σ) (program : String) : σ → List Execution → σ → Prop
  | nil (st : σ) : Performs shell program st [] st
  | cons {command : String} {result : RunResult} {st st' st'' : σ} {runs : List Execution}
      (ends : shell program command st = (result, st'))
      (rest : Performs shell program st' runs st'') :
      Performs shell program st (⟨program, command, result⟩ :: runs) st''

/-- A run performs its executions one after the other. -/
theorem Runs.performs {commands : List String} {st st' : σ} {runs : List Execution}
    {o : Option Outcome} (h : shell.Runs program commands st runs o st') :
    shell.Performs program st runs st' := by
  induction h with
  | done st => exact .nil st
  | stop ends => exact .cons ends (.nil _)
  | next ends _ _ ih => exact .cons ends ih

/-- A run ends with the first command that fails, or after all of them. -/
theorem Runs.ends {commands : List String} {st st' : σ} {runs : List Execution}
    {o : Option Outcome} (h : shell.Runs program commands st runs o st') :
    Ends commands runs o := by
  induction h with
  | done => exact .all rfl (by simp)
  | @stop command rest _ _ result o _ fails =>
    show Ends (command :: rest) ([] ++ [⟨program, command, result⟩]) (some o)
    exact .failed (List.prefix_append [command] rest) (by simp) (classify_eq_some_iff.mp fails)
  | @next command _ _ _ _ result _ _ _ succeeds _ ih =>
    have hfirst := (classify_eq_none_iff ⟨program, command, result⟩).mp succeeds
    cases ih with
    | all all succeeded =>
      exact .all (congrArg _ all) (List.forall_mem_cons.mpr ⟨hfirst, succeeded⟩)
    | failed first succeeded fails =>
      rw [← List.cons_append]
      refine .failed ?_ (List.forall_mem_cons.mpr ⟨hfirst, succeeded⟩) fails
      exact (List.prefix_cons_inj _).mpr first

end Shell

/-! ## Attempts -/

namespace Blueprint

variable {σ : Type}

/-- A target that cannot be resolved fails with nothing run. -/
theorem installTarget_of_error (b : Blueprint) (shell : Shell σ) {t : String} {e : ResolveError}
    (he : b.installCommands t = .error e) (w : World σ) :
    (b.installTarget shell t).run w = (some e.outcome, w) := by
  rw [installTarget, he]
  rfl

/-- **All commands are known before any of them is run.** An attempt at an unknown target runs
nothing. If anything goes wrong with the steps of a target, at any position and any depth, nothing
is run, and the outcome is an error that tells the first thing that goes wrong. If nothing does,
the commands of the target are run in order, from the first one on: up to and with the first one
that does not exit with 0, whose end is the outcome, or all of them. There is no outcome exactly if
all that is run has exited with 0. -/
theorem installTarget_resolves_first (b : Blueprint) (shell : Shell σ) (t : String) (w : World σ) :
    (b.procedures.get? t = none →
      (b.installTarget shell t).run w =
        (some ⟨.error, (ResolveError.unknownTarget t).message⟩, w)) ∧
    ∀ p, b.procedures.get? t = some p →
      ((∃ step ∈ p.installSteps, b.GoesWrong step) →
        ∃ step e, IsFirst b.GoesWrong p.installSteps step ∧ b.FailsFor step e ∧
          (b.installTarget shell t).run w = (some ⟨.error, e.message⟩, w)) ∧
      ((∀ step ∈ p.installSteps, ¬ b.GoesWrong step) →
        ∃ commands runs o st', b.installCommands t = .ok commands ∧
          (b.installTarget shell t).run w =
            (o, ⟨st', w.events ++ runs.map Execution.event⟩) ∧
          shell.Performs b.shell w.state runs st' ∧ Ends commands runs o ∧
          (o = none ↔ ∀ e ∈ runs, e.Succeeded)) := by
  refine ⟨fun hunknown => ?_, fun p hp => ⟨fun hwrong => ?_, fun hright => ?_⟩⟩
  · have he : b.installCommands t = .error (.unknownTarget t) := by
      rw [installCommands, procedureOf, hunknown]
      rfl
    exact b.installTarget_of_error shell he w
  · obtain ⟨step, e, hfirst, hfails, he⟩ := exists_installCommands_eq_error hp hwrong
    exact ⟨step, e, hfirst, hfails, b.installTarget_of_error shell he w⟩
  · obtain ⟨commands, hcommands⟩ := exists_installCommands_eq_ok hp hright
    obtain ⟨runs, o, st', hruns, hrun⟩ := b.runAll_run shell commands w.state
    refine ⟨commands, runs, o, st', hcommands, ?_, hruns.performs, hruns.ends,
      hruns.ends.eq_none_iff⟩
    rw [installTarget, hcommands]
    exact hrun w.events

end Blueprint

/-- A target whose second step invokes a recipe in which an argument is left out, and a target whose
second command fails. -/
def Config.incomplete : Config where
  version := "1.0"
  name := "incomplete"
  recipes :=
    ⟨[("package", { params := ["name"], setup := [.command "install {name}"] }),
      ("tools", { setup := [.invocation ⟨"package", .empty⟩] })], by decide⟩
  targets :=
    ⟨[("desk", { setup := [.command "make desk", .invocation ⟨"tools", .empty⟩] }),
      ("shelf", { setup := [.invocation ⟨"package", .positional [.string "board"]⟩,
        .command "make shelf", .command "paint shelf"] })], by decide⟩

/-- One target fails for an argument before anything is run; of the other one, the second of three
commands is the last that is run. -/
theorem installTarget_resolves_first_incomplete :
    let b := Blueprint.ofConfig .incomplete
    let shell := Shell.stumbling "make shelf"
    b.GoesWrong (.invocation ⟨"tools", .empty⟩) ∧
    (b.installTarget shell "desk").run ⟨0, []⟩ =
      (some ⟨.error, (RecipeError.missingArgument "package" "name").message⟩, ⟨0, []⟩) ∧
    ¬ b.GoesWrong (.invocation ⟨"package", .positional [.string "board"]⟩) ∧
    b.installCommands "shelf" = .ok ["install board", "make shelf", "paint shelf"] ∧
    ∃ runs, runs.map Execution.event = [.ran "sh" "install board" (.ok ⟨0, "", ""⟩),
        .ran "sh" "make shelf" (.ok ⟨2, "", ""⟩)] ∧
      Ends ["install board", "make shelf", "paint shelf"] runs (some ⟨.error, ""⟩) := by
  intro b shell
  have hwrong : b.GoesWrong (.invocation ⟨"tools", .empty⟩) :=
    .inside rfl rfl (List.mem_singleton_self _) (.refused (.binding rfl rfl rfl))
  have hright : ¬ b.GoesWrong (.invocation ⟨"package", .positional [.string "board"]⟩) := by
    have hcommands : b.stepCommands (.invocation ⟨"package", .positional [.string "board"]⟩) =
        .ok ["install board"] := by decide +kernel
    rw [← Blueprint.exists_stepCommands_error_iff, hcommands]
    simp
  have hshelf : b.installCommands "shelf" = .ok ["install board", "make shelf", "paint shelf"] := by
    decide +kernel
  refine ⟨hwrong, ?_, hright, hshelf, ?_⟩
  · obtain ⟨_, e, -, -, hrun⟩ :=
      ((b.installTarget_resolves_first shell "desk" ⟨0, []⟩).2 _ rfl).1
      ⟨_, List.mem_cons_of_mem _ (List.mem_cons_self ..), hwrong⟩
    have hmessage : ((b.installTarget shell "desk").run ⟨0, []⟩).1 =
        some ⟨.error, (RecipeError.missingArgument "package" "name").message⟩ := by
      decide +kernel
    rw [hrun] at hmessage ⊢
    rw [← hmessage]
  · obtain ⟨commands, runs, o, _, hcommands, hrun, -, hends, -⟩ :=
      ((b.installTarget_resolves_first shell "shelf" ⟨0, []⟩).2 _ rfl).2 (by
        intro step hstep
        rcases List.mem_cons.mp hstep with rfl | hstep
        · exact hright
        · rcases List.mem_pair.mp hstep with rfl | rfl <;> rintro ⟨⟩)
    obtain rfl := Except.ok.inj (hcommands.symm.trans hshelf)
    have ho : ((b.installTarget shell "shelf").run ⟨0, []⟩).1 = some ⟨.error, ""⟩ := by
      decide +kernel
    have hevents : ((b.installTarget shell "shelf").run ⟨0, []⟩).2.events =
        [.ran "sh" "install board" (.ok ⟨0, "", ""⟩),
          .ran "sh" "make shelf" (.ok ⟨2, "", ""⟩)] := by
      rw [Blueprint.installTarget, hshelf]
      rfl
    rw [hrun] at ho hevents
    exact ⟨runs, hevents, ho ▸ hends⟩

end Provision
