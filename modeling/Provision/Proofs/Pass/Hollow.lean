import Provision.Proofs.Pass.Procedure
import Provision.Proofs.Pass.Safety

/-!
# Targets for which nothing is run

Every accepted target has steps that install it, but an invocation may come to nothing: a recipe
need not have a setup, and a setup may consist of invocations of such recipes. A target all of whose
steps come to nothing is reported as installed although nothing has been run for it. There is no
other way: where each recipe has a setup, something is run for each target that is installed.

> `Expansion.eq_nil_iff`: steps expand to no commands exactly if they are hollow;
> `installed_runs`: which installed targets nothing has been run for.
-/

namespace Provision

/-! ## Hollow steps -/

namespace Recipe

variable {index : RecipeIndex}

/-- A step that comes to nothing: an invocation of a recipe all of whose steps come to nothing. -/
inductive Hollow (index : RecipeIndex) : Executable → Prop
  | invocation {i : Invocation} {r : Recipe} (known : index.get? i.recipe = some r)
      (setup : ∀ step ∈ r.setup, Hollow index step) : Hollow index (.invocation i)

/-- A command is a command. -/
theorem not_hollow_command {text : String} : ¬ Hollow index (.command text) := nofun

/-- An invocation is hollow when all steps of its recipe are. -/
theorem hollow_invocation_iff {i : Invocation} {r : Recipe} (known : index.get? i.recipe = some r) :
    Hollow index (.invocation i) ↔ ∀ step ∈ r.setup, Hollow index step := by
  constructor
  · intro h
    cases h with
    | invocation known' setup =>
      obtain rfl := Option.some.inj (known.symm.trans known')
      exact setup
  · exact .invocation known

/-- Where each recipe has a setup, no step is hollow: there would be no end to its invocations. -/
theorem not_hollow (hsetup : ∀ n r, index.get? n = some r → r.setup ≠ []) (step : Executable) :
    ¬ Hollow index step := by
  intro h
  -- its recipe has a first step, which is hollow again
  induction h with
  | invocation known _ ih =>
    obtain ⟨step, hstep⟩ := List.exists_mem_of_ne_nil _ (hsetup _ _ known)
    exact ih step hstep

/-- **Steps expand to no commands exactly if they are hollow.** -/
theorem Expansion.eq_nil_iff {r : Recipe} {b : Bindings} {steps : List Executable}
    {commands : List String} (d : Expansion index r b steps commands) :
    commands = [] ↔ ∀ step ∈ steps, Hollow index step := by
  -- a template gives a command, and an invocation what its recipe gives
  induction d with
  | done => simp
  | command written after ih => simp [not_hollow_command]
  | invocation opens body after ihBody ihAfter =>
    obtain ⟨known, -, -⟩ := opens
    rw [List.append_eq_nil_iff, List.forall_mem_cons, hollow_invocation_iff known, ihBody, ihAfter]

end Recipe

open Blueprint
open Recipe (Hollow)

namespace Blueprint

variable {b : Blueprint} {t : String} {p : Procedure}

/-- A step resolves to no command exactly when it is hollow. -/
theorem stepCommands_eq_nil_iff {step : Executable} {commands : List String}
    (h : b.stepCommands step = .ok commands) : commands = [] ↔ Hollow b.recipes step := by
  cases step with
  | command text =>
    obtain rfl := Except.ok.inj h
    simp [Recipe.not_hollow_command]
  | invocation i =>
    obtain ⟨r, known, hcommands⟩ := bind_eq_ok_iff.mp (mapError_eq_ok_iff.mp h)
    obtain ⟨_, -, d, -⟩ := Recipe.setupCommands_eq_ok_iff.mp hcommands
    rw [d.eq_nil_iff, Recipe.hollow_invocation_iff (Recipe.lookup_eq_ok_iff.mp known)]

/-- A list of steps resolves to no command exactly when all of them are hollow. -/
theorem flatten_eq_nil_iff {steps : List Executable} {parts : List (List String)}
    (h : steps.mapM b.stepCommands = .ok parts) :
    parts.flatten = [] ↔ ∀ step ∈ steps, Hollow b.recipes step := by
  induction steps generalizing parts with
  | nil =>
    obtain rfl := Except.ok.inj h
    simp
  | cons step steps ih =>
    obtain ⟨first, rest, hfirst, hrest, rfl⟩ := mapM_cons_eq_ok_iff.mp h
    rw [List.flatten_cons, List.append_eq_nil_iff, List.forall_mem_cons,
      stepCommands_eq_nil_iff hfirst, ih hrest]

/-- The commands that install a target are none exactly if all of its steps are hollow. -/
theorem installCommands_eq_nil_iff {commands : List String} (hp : b.procedureOf t = .ok p)
    (h : b.installCommands t = .ok commands) :
    commands = [] ↔ ∀ step ∈ p.installSteps, Hollow b.recipes step := by
  obtain ⟨p', hp', h⟩ := bind_eq_ok_iff.mp h
  obtain rfl := Except.ok.inj (hp.symm.trans hp')
  obtain ⟨parts, hparts, hcommands⟩ := bind_eq_ok_iff.mp h
  obtain rfl := Except.ok.inj hcommands
  exact flatten_eq_nil_iff hparts

end Blueprint

/-! ## Installed targets -/

/-- A target all of whose steps are hollow. -/
def Blueprint.HollowTarget (b : Blueprint) (t : String) : Prop :=
  ∃ p, b.procedureOf t = .ok p ∧ ∀ step ∈ p.installSteps, Hollow b.recipes step

section Accepted

variable {σ : Type} {c : Config} {b : Blueprint}

/-- A target resolves to no command exactly when it is hollow. -/
theorem commands_eq_nil_iff_hollowTarget {t : String} {commands : List String}
    (h : b.installCommands t = .ok commands) : commands = [] ↔ b.HollowTarget t := by
  obtain ⟨p, hp, -⟩ := bind_eq_ok_iff.mp h
  rw [Blueprint.installCommands_eq_nil_iff hp h]
  constructor
  · exact fun hall => ⟨p, hp, hall⟩
  · rintro ⟨p', hp', hall⟩
    obtain rfl := Except.ok.inj (hp.symm.trans hp')
    exact hall

/-- Only declared targets have a procedure. -/
theorem mem_targets_of_procedureOf (h : (Loaded.ofConfig c).result = .ok b) {t : String}
    {p : Procedure} (hp : b.procedureOf t = .ok p) : t ∈ c.targets.keys := by
  rw [← keys_procedures_ofConfig, ← eq_ofConfig_of_accepted h, Registry.mem_keys_iff]
  rw [procedureOf] at hp
  split at hp
  next p' hget => exact ⟨p', hget⟩
  next => cases hp

/-- An accepted target has steps that install it. -/
theorem installSteps_ne_nil (h : (Loaded.ofConfig c).result = .ok b) {t : String} {p : Procedure}
    (hp : b.procedureOf t = .ok p) : p.installSteps ≠ [] := by
  obtain ⟨d, hd, hp'⟩ := get?_procedures_of_accepted h (mem_targets_of_procedureOf h hp)
  obtain rfl := Except.ok.inj (hp.symm.trans hp')
  obtain ⟨hsome, -⟩ := exists_checkStep h hd
  intro hnil
  rw [Procedure.installSteps] at hnil
  split at hnil
  next hsetup => exact hsome ⟨List.isEmpty_iff.mp hsetup, hnil⟩
  next hsetup => exact hsetup (List.isEmpty_iff.mpr hnil)

/-- Where each recipe has a setup, no accepted target is hollow. -/
theorem not_hollowTarget (h : (Loaded.ofConfig c).result = .ok b)
    (hsetup : ∀ n d, c.recipes.get? n = some d → d.setup ≠ []) (t : String) :
    ¬ b.HollowTarget t := by
  rintro ⟨p, hp, hall⟩
  obtain ⟨step, hstep⟩ := List.exists_mem_of_ne_nil _ (installSteps_ne_nil h hp)
  refine Recipe.not_hollow (fun n r hr => ?_) step (hall step hstep)
  rw [get?_recipes_of_accepted h] at hr
  obtain ⟨d, hd, rfl⟩ := Option.map_eq_some_iff.mp hr
  exact hsetup n d hd

/-- **What has been run for installed targets.** The commands of an accepted target are none
exactly if its steps, of which there is at least one, are hollow. All commands of a target that is
reported as installed have been run in the pass, and have exited with 0; nothing has been run for
it exactly if it is hollow. Where each recipe has a setup, something has been run for each of
them. -/
theorem installed_runs (h : (Loaded.ofConfig c).result = .ok b) (shell : Shell σ)
    (s : StatusReport) (w : World σ) :
    let installed := ((b.installMissing shell s).run w).1.installed
    let runs := fun t => (b.attemptIn shell s w t).2
    (∀ t p, b.procedureOf t = .ok p → p.installSteps ≠ []) ∧
    (∀ t commands, b.installCommands t = .ok commands → (commands = [] ↔ b.HollowTarget t)) ∧
    ((b.installMissing shell s).run w).2.executions =
      w.executions ++ (b.order.filter (b.Attempted shell s w)).flatMap runs ∧
    (∀ t ∈ installed, t ∈ b.order.filter (b.Attempted shell s w) ∧
      b.installCommands t = .ok ((runs t).map Execution.command) ∧
      (∀ e ∈ runs t, e.Succeeded) ∧ (runs t = [] ↔ b.HollowTarget t)) ∧
    ((∀ n d, c.recipes.get? n = some d → d.setup ≠ []) → ∀ t ∈ installed, runs t ≠ []) := by
  intro installed runs
  have harranged := order_arranged h
  have hinstalled : ∀ t ∈ installed, t ∈ b.order.filter (b.Attempted shell s w) ∧
      b.installCommands t = .ok ((runs t).map Execution.command) ∧
      (∀ e ∈ runs t, e.Succeeded) ∧ (runs t = [] ↔ b.HollowTarget t) := by
    intro t ht
    have horder := (installMissing_inOrder b shell s w).installed.subset ht
    obtain ⟨hcommands, hall⟩ := installed_succeeded harranged horder ht
    refine ⟨List.mem_filter.mpr ⟨horder, decide_eq_true (.inl ht)⟩, hcommands, hall, ?_⟩
    rw [← commands_eq_nil_iff_hollowTarget hcommands, List.map_eq_nil_iff]
  refine ⟨fun t p => installSteps_ne_nil h, fun t commands => commands_eq_nil_iff_hollowTarget,
    installFrom_executions shell s harranged w b.order (List.append_nil _).symm, hinstalled,
    fun hsetup t ht hnil => ?_⟩
  exact not_hollowTarget h hsetup t ((hinstalled t ht).2.2.2.mp hnil)

end Accepted

/-- A target whose recipe is there runs its command. -/
theorem installed_runs_packaged :
    (Loaded.ofConfig .packaged).result = .ok (ofConfig .packaged) ∧
    ((ofConfig .packaged).attemptIn (.stumbling "") { missing := ["git"] } ⟨0, []⟩
      "git").2 ≠ [] := by
  obtain ⟨-, -, -, -, hsome⟩ :=
    installed_runs packaged_accepted (.stumbling "") { missing := ["git"] } ⟨0, []⟩
  refine ⟨packaged_accepted, hsome (fun n d hd => ?_) "git" (by decide +kernel)⟩
  have hmem := (Registry.get?_eq_some_iff _ n d).mp hd
  have hall : ∀ e ∈ Config.packaged.recipes.entries, e.2.setup ≠ [] := by decide
  exact hall _ hmem

/-! ## A target without commands -/

/-- A target that is installed by a recipe without a setup. -/
def Config.unequipped : Config where
  version := "1.0"
  name := "unequipped"
  recipes := ⟨[("mark", { check := some "exit 1" })], by decide⟩
  targets := ⟨[("tool", { recipe := [.invocation ⟨"mark", .empty⟩] })], by decide⟩

/-- A target whose recipe has no setup passes validation. -/
theorem unequipped_accepted :
    (Loaded.ofConfig .unequipped).result = .ok (ofConfig .unequipped) :=
  (Loaded.ofConfig_eq_ok_iff _ _).mpr ⟨rfl, by decide⟩

/-- A shell that counts the commands, all of which end with 1. -/
def Shell.refusing : Shell Nat := fun _ _ n => (.ok ⟨1, "", ""⟩, n + 1)

/-- **A target may be installed by nothing.** The check of an accepted target says that it is
missing; the pass that follows reports it as installed, and has run nothing. -/
theorem unequipped_installed :
    (Loaded.ofConfig .unequipped).result = .ok (ofConfig .unequipped) ∧
    (ofConfig .unequipped).installCommands "tool" = .ok [] ∧
    let checked := ((ofConfig .unequipped).status .refusing).run ⟨0, []⟩
    let pass := ((ofConfig .unequipped).installMissing .refusing checked.1).run
      ⟨checked.2.state, []⟩
    checked.1.missing = ["tool"] ∧ pass.1.installed = ["tool"] ∧ pass.2.executions = [] :=
  ⟨unequipped_accepted, by decide, by decide +kernel, by decide +kernel,
    List.isEmpty_iff.mp (by decide +kernel)⟩

end Provision
