import Provision.Pass.Procedure
import Provision.Proofs.InstallOrder
import Provision.Proofs.Recipe.Nesting

/-!
# The commands of accepted targets

In an accepted configuration all names that targets and recipes invoke are declared, each target
has something that checks it, and the recipe that checks it has a check. So nothing but the
arguments and the placeholders can keep the commands of a target from being known; and recipes
are nested too deep only where they form a long chain, since they form no circle.

> `exists_chain_of_tooDeep`: recipes that are nested too deep are 33 different ones in a row;
> `commands_resolve`: what becomes of the commands of an accepted target.
-/

namespace Provision

open Blueprint (ofConfig)
open Recipe (Invokes)
open Relation (ReflTransGen)

section Accepted

variable {c : Config} {b : Blueprint}

/-! ## Declared recipes -/

/-- Accepted targets and recipes invoke declared recipes only. -/
theorem mem_recipes_of_accepted (h : (Loaded.ofConfig c).result = .ok b) {o : Owner} {n : String}
    (hn : n ∈ c.invoked o) : n ∈ c.recipes.keys := by
  by_contra hunknown
  exact not_breaks_of_accepted h _ (.unknownRecipe hn hunknown)

/-- The invocations of accepted recipes form no circle. -/
theorem nests_acyclic_of_accepted (h : (Loaded.ofConfig c).result = .ok b) : ¬ Cyclic c.Nests := by
  have hvalid : (ofConfig c).violations = [] := ((Loaded.ofConfig_eq_ok_iff c b).mp h).2
  rw [← exists_recipeCycle_mem_iff, hvalid]
  simp

/-- The recipes of a blueprint are what is declared, with their names. -/
theorem get?_recipes_of_accepted (h : (Loaded.ofConfig c).result = .ok b) (n : String) :
    b.recipes.get? n = (c.recipes.get? n).map (Recipe.ofDeclaration n) := by
  rw [eq_ofConfig_of_accepted h]
  exact Registry.get?_map _ _ _

/-- In an accepted configuration every recipe that is invoked is declared. -/
theorem exists_recipe_of_accepted (h : (Loaded.ofConfig c).result = .ok b) {o : Owner}
    {n : String} (hn : n ∈ c.invoked o) : ∃ r, b.recipes.get? n = some r := by
  obtain ⟨d, hd⟩ := (c.recipes.mem_keys_iff n).mp (mem_recipes_of_accepted h hn)
  exact ⟨Recipe.ofDeclaration n d, by rw [get?_recipes_of_accepted h, hd]; rfl⟩

/-- A recipe that is found is a declared one. -/
theorem mem_recipes_of_get? (h : (Loaded.ofConfig c).result = .ok b) {n : String} {r : Recipe}
    (hr : b.recipes.get? n = some r) : n ∈ c.recipes.keys := by
  rw [← Blueprint.keys_recipes_ofConfig, ← eq_ofConfig_of_accepted h, Registry.mem_keys_iff]
  exact ⟨r, hr⟩

/-- Recipes are kept under their own names. -/
theorem name_of_get? (h : (Loaded.ofConfig c).result = .ok b) {n : String} {r : Recipe}
    (hr : b.recipes.get? n = some r) : r.name = n := by
  rw [get?_recipes_of_accepted h] at hr
  obtain ⟨d, -, rfl⟩ := Option.map_eq_some_iff.mp hr
  rfl

/-- What stands in the setup of a recipe is what the recipe is declared to invoke. -/
theorem mem_invoked_of_get? (h : (Loaded.ofConfig c).result = .ok b) {n : String} {r : Recipe}
    (hr : b.recipes.get? n = some r) {i : Invocation} (hi : .invocation i ∈ r.setup) :
    i.recipe ∈ c.invoked (.recipe n) := by
  rw [get?_recipes_of_accepted h] at hr
  obtain ⟨d, hd, rfl⟩ := Option.map_eq_some_iff.mp hr
  rw [Config.invoked, hd]
  exact List.mem_filterMap.mpr ⟨.invocation i, hi, rfl⟩

/-! ## Chains of recipes -/

/-- A recipe that a declared recipe invokes is declared under its own name, too. -/
theorem nests_of_invokes (h : (Loaded.ofConfig c).result = .ok b) {r inner : Recipe}
    (hr : b.recipes.get? r.name = some r) (hinvokes : Invokes b.recipes r inner) :
    c.Nests r.name inner.name ∧ b.recipes.get? inner.name = some inner := by
  obtain ⟨i, hi, known⟩ := hinvokes
  have hname := name_of_get? h known
  have hinvoked := mem_invoked_of_get? h hr hi
  rw [hname]
  exact ⟨⟨hinvoked, mem_recipes_of_accepted h hinvoked⟩, known⟩

/-- Whatever a recipe leads to is found under its name. -/
theorem get?_of_reflTransGen (h : (Loaded.ofConfig c).result = .ok b) {r inner : Recipe}
    (hr : b.recipes.get? r.name = some r) (hreach : ReflTransGen (Invokes b.recipes) r inner) :
    b.recipes.get? inner.name = some inner := by
  induction hreach with
  | refl => exact hr
  | tail _ hstep ih => exact (nests_of_invokes h ih hstep).2

/-- The names in a chain of recipes are a chain of declared names. -/
theorem isChain_names (h : (Loaded.ofConfig c).result = .ok b) : ∀ (chain : List Recipe)
    {r : Recipe}, b.recipes.get? r.name = some r → (r :: chain).IsChain (Invokes b.recipes) →
      ((r :: chain).map Recipe.name).IsChain c.Nests ∧
      ∀ n ∈ (r :: chain).map Recipe.name, n ∈ c.recipes.keys := by
  intro chain
  induction chain with
  | nil =>
    intro r hr _
    refine ⟨.singleton _, fun n hn => ?_⟩
    rw [List.mem_singleton.mp hn]
    exact mem_recipes_of_get? h hr
  | cons inner chain ih =>
    intro r hr hchain
    rw [List.isChain_cons_cons] at hchain
    obtain ⟨hnests, hinner⟩ := nests_of_invokes h hr hchain.1
    obtain ⟨hnames, hkeys⟩ := ih hinner hchain.2
    refine ⟨List.isChain_cons_cons.mpr ⟨hnests, hnames⟩, fun n hn => ?_⟩
    rcases List.mem_cons.mp hn with rfl | hn
    · exact mem_recipes_of_get? h hr
    · exact hkeys n hn

/-- **Recipes that are nested too deep are 33 different ones in a row.** -/
theorem exists_chain_of_tooDeep (h : (Loaded.ofConfig c).result = .ok b) {r : Recipe}
    (hr : b.recipes.get? r.name = some r) {a : Arguments} {name : String} {limit : Nat}
    (hdeep : r.setupCommands a b.recipes = .error (.tooDeep name limit)) :
    limit = 32 ∧ ∃ chain : List String, chain.length = 33 ∧ chain.Nodup ∧
      (∀ n ∈ chain, n ∈ c.recipes.keys) ∧ chain.IsChain c.Nests := by
  obtain ⟨rfl, _, _, -, -, hfail⟩ := Recipe.setupCommands_eq_tooDeep_iff.mp hdeep
  obtain ⟨-, chain, hchain, hlength⟩ := hfail.exists_chain (fun _ hstep => hstep) (by decide)
  obtain ⟨hnames, hkeys⟩ := isChain_names h chain hr hchain
  refine ⟨rfl, (r :: chain).map Recipe.name, ?_, ?_, hkeys, hnames⟩
  · rw [List.length_map, List.length_cons, Nat.add_comm]
    exact hlength
  · exact nodup_of_isChain (nests_acyclic_of_accepted h) hnames

/-- What a declared recipe is refused for: arguments and placeholders, or its nesting. -/
theorem setupCommands_refused (h : (Loaded.ofConfig c).result = .ok b) {r : Recipe}
    (hr : b.recipes.get? r.name = some r) {a : Arguments} {e : RecipeError}
    (he : r.setupCommands a b.recipes = .error e) :
    e.OfArguments ∨ ∃ name limit, e = .tooDeep name limit := by
  rcases Recipe.setupCommands_eq_error_iff.mp he with hbind | ⟨_, -, f, hf, rfl⟩
  · exact Or.inl (Recipe.bind_refused hbind)
  · cases f with
    | entering _ x => exact Or.inr ⟨x.name, Recipe.maxDepth, rfl⟩
    | refused e =>
      obtain ⟨r', _, step, hreach, hstep, refuses⟩ := hf.exists_refuses fun _ hstep => hstep
      rcases refuses.reason with hreason | ⟨i, rfl, hnone, -⟩
      · exact Or.inl hreason
      · -- the walk only comes to declared recipes, and these invoke declared ones
        have hr' := get?_of_reflTransGen h hr hreach
        obtain ⟨inner, known⟩ := exists_recipe_of_accepted h (mem_invoked_of_get? h hr' hstep)
        rw [hnone] at known
        simp at known

/-! ## Targets -/

/-- The procedure of a target is the one that it declares. -/
theorem get?_procedures_of_accepted (h : (Loaded.ofConfig c).result = .ok b) {t : String}
    (ht : t ∈ c.targets.keys) : ∃ d, c.targets.get? t = some d ∧
      b.procedureOf t = .ok d.procedure := by
  obtain ⟨d, hd⟩ := (c.targets.mem_keys_iff t).mp ht
  have hget : b.procedures.get? t = (c.targets.get? t).map TargetDeclaration.procedure := by
    rw [eq_ofConfig_of_accepted h]
    exact Registry.get?_map _ _ _
  refine ⟨d, hd, ?_⟩
  rw [Blueprint.procedureOf, hget, hd]
  rfl

/-- A recipe that a step of a target invokes is invoked by the target. -/
theorem mem_invoked_of_mem_executables {t : String} {d : TargetDeclaration}
    (hd : c.targets.get? t = some d) {i : Invocation}
    (hi : .invocation i ∈ d.procedure.executables) : i.recipe ∈ c.invoked (.target t) := by
  rw [Config.invoked, hd]
  exact List.mem_filterMap.mpr ⟨.invocation i, hi, rfl⟩

theorem TargetDeclaration.CheckedBy.mem_executables {d : TargetDeclaration} {e : Executable}
    (h : d.CheckedBy e) : e ∈ d.procedure.executables := by
  cases h with
  | check given => simp [Procedure.executables, procedure, given]
  | recipe _ first => simp [Procedure.executables, procedure, first]
  | setup _ _ first => simp [Procedure.executables, procedure, first]

/-- The steps of an installation are among everything that a procedure executes. -/
theorem mem_executables_of_mem_installSteps {p : Procedure} {e : Executable}
    (h : e ∈ p.installSteps) : e ∈ p.executables := by
  rw [Procedure.installSteps] at h
  split at h
  · exact List.mem_append_right _ h
  · exact List.mem_append_left _ (List.mem_append_right _ h)

/-- An accepted target has something that checks it. -/
theorem exists_checkStep (h : (Loaded.ofConfig c).result = .ok b) {t : String}
    {d : TargetDeclaration} (hd : c.targets.get? t = some d) :
    ¬ d.IsEmpty ∧ ∃ e, d.procedure.checkStep? = some e := by
  have hsome : ¬ d.IsEmpty := fun hempty => not_breaks_of_accepted h _ (.emptyProcedure hd hempty)
  refine ⟨hsome, ?_⟩
  cases hstep : d.procedure.checkStep? with
  | some e => exact ⟨e, rfl⟩
  | none =>
    obtain ⟨hcheck, hrecipe, command, rest, hraw⟩ := (checkStep?_eq_none_iff d hsome).mp hstep
    exact absurd (.noCheckCommand hd hcheck hrecipe hraw) (not_breaks_of_accepted h _)

/-- The check of an accepted target is known, unless its arguments or placeholders are wrong. -/
theorem checkCommand_resolves (h : (Loaded.ofConfig c).result = .ok b) {t : String}
    (ht : t ∈ c.targets.keys) : (∃ command, b.checkCommand t = .ok command) ∨
      ∃ e, b.checkCommand t = .error (.recipe e) ∧ e.OfArguments := by
  obtain ⟨d, hd, hprocedure⟩ := get?_procedures_of_accepted h ht
  obtain ⟨hsome, e, hstep⟩ := exists_checkStep h hd
  have hchecked := (checkStep?_eq_some_iff d e).mp hstep
  cases e with
  | command text =>
    left
    refine ⟨text, ?_⟩
    rw [Blueprint.checkCommand, hprocedure]
    simp only [bind, Except.bind, hstep]
    rfl
  | invocation i =>
    have hinvoked := mem_invoked_of_mem_executables hd hchecked.mem_executables
    obtain ⟨r, hr⟩ := exists_recipe_of_accepted h hinvoked
    have hcommand : b.checkCommand t = (r.checkCommand i.arguments).mapError .recipe := by
      rw [Blueprint.checkCommand, hprocedure]
      simp only [bind, Except.bind, hstep, Invocation.checkCommand,
        Recipe.lookup_eq_ok_iff.mpr hr]
    have hcheck : r.check ≠ none := by
      intro hnone
      rw [get?_recipes_of_accepted h] at hr
      obtain ⟨decl, hdecl, rfl⟩ := Option.map_eq_some_iff.mp hr
      exact not_breaks_of_accepted h _ (.recipeWithoutCheck hd hsome hchecked hdecl hnone)
    rw [hcommand]
    cases hresult : r.checkCommand i.arguments with
    | ok command => exact Or.inl ⟨command, rfl⟩
    | error e => exact Or.inr ⟨e, rfl, Recipe.checkCommand_refused hcheck hresult⟩

/-- The commands of an accepted target are known, unless those of a recipe it invokes are not. -/
theorem installCommands_eq_error (h : (Loaded.ofConfig c).result = .ok b) {t : String}
    (ht : t ∈ c.targets.keys) {e : ResolveError} (he : b.installCommands t = .error e) :
    ∃ r a e', b.recipes.get? r.name = some r ∧ r.setupCommands a b.recipes = .error e' ∧
      e = .recipe e' := by
  obtain ⟨d, hd, hprocedure⟩ := get?_procedures_of_accepted h ht
  rw [Blueprint.installCommands, hprocedure] at he
  rcases bind_eq_error_iff.mp he with he | ⟨p, hp, he⟩
  · simp at he
  obtain rfl := Except.ok.inj hp
  rcases bind_eq_error_iff.mp he with he | ⟨_, -, he⟩
  · obtain ⟨step, hstep, he⟩ := exists_of_mapM_eq_error he
    cases step with
    | command text => simp [Blueprint.stepCommands] at he
    | invocation i =>
      obtain ⟨e', he', rfl⟩ := mapError_eq_error_iff.mp he
      have hinvoked := mem_invoked_of_mem_executables hd
        (mem_executables_of_mem_installSteps hstep)
      obtain ⟨r, hr⟩ := exists_recipe_of_accepted h hinvoked
      rw [Invocation.setupCommands, Recipe.lookup_eq_ok_iff.mpr hr] at he'
      exact ⟨r, i.arguments, e', by rwa [name_of_get? h hr], he', rfl⟩
  · simp [pure, Except.pure] at he

/-- **Nothing but arguments and placeholders can be wrong with the commands of accepted targets.**
The check of a declared target is known, or fails for these reasons. What installs it is known, or
fails for these reasons, or else because at least 33 different declared recipes invoke one another
in a row; with 32 recipes or fewer that does not happen. -/
theorem commands_resolve (h : (Loaded.ofConfig c).result = .ok b) {t : String}
    (ht : t ∈ c.targets.keys) :
    ((∃ command, b.checkCommand t = .ok command) ∨
      ∃ e, b.checkCommand t = .error (.recipe e) ∧ e.OfArguments) ∧
    ((∃ commands, b.installCommands t = .ok commands) ∨
      ∃ e, b.installCommands t = .error (.recipe e) ∧
        (e.OfArguments ∨ (∃ name, e = .tooDeep name 32) ∧
          ∃ chain : List String, 33 ≤ chain.length ∧ chain.Nodup ∧
            (∀ n ∈ chain, n ∈ c.recipes.keys) ∧ chain.IsChain c.Nests)) ∧
    (c.recipes.size ≤ 32 →
      ∀ name limit, b.installCommands t ≠ .error (.recipe (.tooDeep name limit))) := by
  refine ⟨checkCommand_resolves h ht, ?_, fun hsize name limit he => ?_⟩
  · cases hresult : b.installCommands t with
    | ok commands => exact Or.inl ⟨commands, rfl⟩
    | error e =>
      right
      obtain ⟨r, a, e', hr, he', rfl⟩ := installCommands_eq_error h ht hresult
      refine ⟨e', rfl, ?_⟩
      rcases setupCommands_refused h hr he' with hreason | ⟨name, limit, rfl⟩
      · exact Or.inl hreason
      · obtain ⟨rfl, chain, hlength, hchain⟩ := exists_chain_of_tooDeep h hr he'
        exact Or.inr ⟨⟨name, rfl⟩, chain, Nat.le_of_eq hlength.symm, hchain⟩
  · obtain ⟨r, a, e', hr, he', heq⟩ := installCommands_eq_error h ht he
    obtain rfl := ResolveError.recipe.inj heq
    obtain ⟨-, chain, hlength, hnodup, hkeys, -⟩ := exists_chain_of_tooDeep h hr he'
    -- 33 different names do not fit among 32
    have hfits := hnodup.length_le_of_subset hkeys
    rw [hlength, ← Registry.size_eq_length_keys] at hfits
    omega

end Accepted

/-- A recipe that passes its argument on to another one, and a target that leaves it out. -/
def Config.packaged : Config where
  version := "1.0"
  name := "packaged"
  recipes :=
    ⟨[("tool",
        { params := ["name"]
          check := some "which {name}"
          setup := [.invocation ⟨"package", .positional [.string "{name}"]⟩] }),
      ("package", { params := ["package"], setup := [.command "apt install {package}"] })],
      by decide⟩
  targets :=
    ⟨[("git", { recipe := [.invocation ⟨"tool", .positional [.string "git"]⟩] }),
      ("editor", { dependsOn := ["git"], recipe := [.invocation ⟨"tool", .empty⟩] })], by decide⟩

/-- The configuration of the example is accepted. -/
theorem packaged_accepted :
    (Loaded.ofConfig .packaged).result = .ok (Blueprint.ofConfig .packaged) :=
  (Loaded.ofConfig_eq_ok_iff _ _).mpr ⟨rfl, by decide⟩

/-- The check of the target is not known, for the argument that is left out, and neither is what
installs it. -/
theorem commands_resolve_packaged :
    let b := Blueprint.ofConfig .packaged
    let e := RecipeError.missingArgument "tool" "name"
    (Loaded.ofConfig .packaged).result = .ok b ∧ "editor" ∈ Config.packaged.targets.keys ∧
    b.checkCommand "editor" = .error (.recipe e) ∧
    b.installCommands "editor" = .error (.recipe e) ∧ e.OfArguments ∧
    ∀ name limit, b.installCommands "editor" ≠ .error (.recipe (.tooDeep name limit)) := by
  intro b e
  have hdeclared : "editor" ∈ Config.packaged.targets.keys := by decide
  have hcheck : b.checkCommand "editor" = .error (.recipe e) := by decide
  obtain ⟨hknown, -, hshallow⟩ := commands_resolve packaged_accepted hdeclared
  refine ⟨packaged_accepted, hdeclared, hcheck, by decide, ?_, hshallow (by decide)⟩
  rcases hknown with ⟨command, hcommand⟩ | ⟨e', he', harguments⟩
  · exact nomatch hcommand.symm.trans hcheck
  · obtain rfl := ResolveError.recipe.inj (Except.error.inj (he'.symm.trans hcheck))
    exact harguments

end Provision
