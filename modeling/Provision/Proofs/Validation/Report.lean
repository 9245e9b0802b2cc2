import Provision.Proofs.Validation.Rule

/-!
# Each part of a report tells one rule

The report of a blueprint is put together from parts. Each part holds the violations that the
configuration gives reason for under its rules, and it is sorted. Unknown dependencies and
unknown recipes have one form: for each owner the unknown names among those it refers to
(`unknownNames`); the repetitions that are taken out of the whole report of recipes are
repetitions within one owner.

> `mem_unknownNames`, `unknownNames_sorted`: what is told of unknown names, and in what order;
> `invocationViolations_eq`: taking out all repetitions is taking them out owner by owner.
-/

namespace Provision

open Blueprint (ofConfig)

/-! ## Unknown names -/

/-- For each owner the unknown names among those it refers to, each once. -/
def unknownNames (refs : Registry (List String)) (known : String → Bool)
    (tell : String → String → Violation) : List Violation :=
  refs.entries.flatMap fun e => (e.2.eraseDups.filter fun d => !known d).map (tell e.1)

variable {refs : Registry (List String)} {known : String → Bool}
  {tell : String → String → Violation}

/-- The unknown names of a table are reported with who refers to them. -/
theorem mem_unknownNames (v : Violation) : v ∈ unknownNames refs known tell ↔
    ∃ o d, d ∈ (refs.get? o).getD [] ∧ known d = false ∧ v = tell o d := by
  rw [unknownNames, List.mem_flatMap]
  constructor
  · rintro ⟨e, he, hv⟩
    obtain ⟨d, hd, rfl⟩ := List.mem_map.mp hv
    rw [List.mem_filter, List.mem_eraseDups, Bool.not_eq_true'] at hd
    refine ⟨e.1, d, ?_, hd.2, rfl⟩
    rw [(refs.get?_eq_some_iff e.1 e.2).mpr he]
    exact hd.1
  · rintro ⟨o, d, hd, hunknown, rfl⟩
    cases hget : refs.get? o with
    | none => rw [hget] at hd; simp at hd
    | some names =>
      rw [hget, Option.getD_some] at hd
      refine ⟨(o, names), (refs.get?_eq_some_iff o names).mp hget, List.mem_map.mpr ⟨d, ?_, rfl⟩⟩
      rw [List.mem_filter, List.mem_eraseDups, Bool.not_eq_true']
      exact ⟨hd, hunknown⟩

/-- Entries stand in the order of the places of their names. -/
theorem entries_pairwise {α : Type} (r : Registry α) :
    r.entries.Pairwise fun e e' => r.keys.idxOf e.1 < r.keys.idxOf e'.1 := by
  have hkeys := pairwise_idxOf r.keys_nodup
  rwa [Registry.keys, List.pairwise_map] at hkeys

/-- What is told of unknown names is sorted, if the telling keeps the places of owner and name. -/
theorem unknownNames_sorted (c : Config) {k : Nat} (hrule : ∀ o d, (tell o d).rule = k)
    (howner : ∀ o d, c.ownerPlace (tell o d) = refs.keys.idxOf o)
    (hname : ∀ o d, c.namePlace (tell o d) = ((refs.get? o).getD []).idxOf d) :
    c.Sorted k k (unknownNames refs known tell) := by
  have hsame : ∀ o a o' b, (tell o a).rule = (tell o' b).rule := by
    intro o a o' b
    rw [hrule, hrule]
  refine ⟨?_, fun v hv => ?_⟩
  · rw [unknownNames, List.pairwise_flatMap]
    constructor
    · -- for one owner the names stand in the order in which it first refers to them
      intro e he
      have hget := (refs.get?_eq_some_iff e.1 e.2).mpr he
      rw [List.pairwise_map]
      refine ((pairwise_idxOf_eraseDups e.2).filter _).imp fun {a b} hab =>
        Or.inr ⟨hsame _ _ _ _, Or.inr ⟨by rw [howner, howner], ?_⟩⟩
      rw [hname, hname, hget]
      exact hab
    · refine (entries_pairwise refs).imp fun {e e'} hplace v hv w hw => ?_
      obtain ⟨a, -, rfl⟩ := List.mem_map.mp hv
      obtain ⟨b, -, rfl⟩ := List.mem_map.mp hw
      exact Or.inr ⟨hsame _ _ _ _, Or.inl (by rw [howner, howner]; exact hplace)⟩
  · obtain ⟨o, d, -, -, rfl⟩ := (mem_unknownNames v).mp hv
    rw [hrule]
    exact ⟨Nat.le_refl _, Nat.le_refl _⟩

/-- Telling all repetitions and taking them out afterwards comes to the same. -/
theorem eraseDups_flatMap_unknown (refs : Registry (List String)) (known : String → Bool)
    (tell : String → String → Violation) (hinj : ∀ o, Function.Injective (tell o))
    (howner : ∀ o o' a b, tell o a = tell o' b → o = o') :
    (refs.entries.flatMap fun e => (e.2.filter fun d => !known d).map (tell e.1)).eraseDups =
      unknownNames refs known tell := by
  rw [eraseDups_flatMap, unknownNames]
  · refine List.flatMap_congr fun e _ => ?_
    rw [eraseDups_map (hinj e.1), eraseDups_filter]
  · have hkeys := refs.nodup
    rw [List.Nodup, List.pairwise_map] at hkeys
    refine hkeys.imp fun {e e'} hne v hv hv' => ?_
    obtain ⟨a, -, rfl⟩ := List.mem_map.mp hv
    obtain ⟨b, -, heq⟩ := List.mem_map.mp hv'
    exact hne (howner _ _ _ _ heq.symm)

/-! ## The header -/

variable (c : Config)

/-- The version and the name are the rules of the header. -/
theorem mem_headerViolations (v : Violation) :
    v ∈ (ofConfig c).headerViolations ↔ c.Breaks v ∧ v.rule ≤ 1 := by
  have hversion : (ofConfig c).config.version = c.version := rfl
  have hname : (ofConfig c).config.name = c.name := rfl
  rw [Blueprint.headerViolations, List.mem_append, hversion, hname, Blueprint.supportedVersion]
  constructor
  · rintro (hv | hv)
    · split at hv
      next => simp at hv
      next h => rw [List.mem_singleton.mp hv]; exact ⟨.unsupportedVersion h, Nat.zero_le _⟩
    · split at hv
      next h => rw [List.mem_singleton.mp hv]; exact ⟨.emptyName h, Nat.le_refl _⟩
      next => simp at hv
  · rintro ⟨hbreaks, hrule⟩
    cases hbreaks with
    | unsupportedVersion h => exact Or.inl (by simp [h])
    | emptyName h => exact Or.inr (by simp [h])
    | @unknownRecipe o r _ _ => cases o <;> simp [Violation.rule] at hrule
    | _ => simp [Violation.rule] at hrule

theorem headerViolations_sorted : c.Sorted 0 1 (ofConfig c).headerViolations := by
  rw [Blueprint.headerViolations]
  have hversion : c.Sorted 0 0 (if (ofConfig c).config.version = Blueprint.supportedVersion then []
      else [.unsupportedVersion (ofConfig c).config.version]) := by
    split
    · exact .nil 0 0
    · exact .singleton (.unsupportedVersion _)
  have hname : c.Sorted 1 1 (if (ofConfig c).config.name = "" then [.emptyName] else []) := by
    split
    · exact .singleton .emptyName
    · exact .nil 1 1
  exact hversion.append hname (by decide) (by decide) (by decide)

/-! ## Unknown dependencies -/

/-- Unknown dependencies are the unknown names among the dependencies. -/
theorem dependencyViolations_eq : (ofConfig c).dependencyViolations =
    unknownNames (c.targets.map fun _ t => t.dependsOn) (ofConfig c).procedures.contains
      .unknownDependency := by
  show (Registry.entries (c.targets.map fun _ t => t.dependsOn.eraseDups)).flatMap _ = _
  rw [unknownNames, Registry.entries_map, Registry.entries_map, List.flatMap_map,
    List.flatMap_map]

theorem declared_eq (t : String) :
    ((c.targets.map fun _ d => d.dependsOn).get? t).getD [] = c.declared t := by
  rw [Registry.get?_map]
  rfl

/-- The second rule is that of the dependencies. -/
theorem mem_dependencyViolations (v : Violation) :
    v ∈ (ofConfig c).dependencyViolations ↔ c.Breaks v ∧ v.rule = 2 := by
  rw [dependencyViolations_eq, mem_unknownNames]
  simp only [declared_eq]
  have hknown : ∀ d, (ofConfig c).procedures.contains d = false ↔ d ∉ c.targets.keys := by
    intro d
    rw [← Bool.not_eq_true, Registry.contains_iff, Blueprint.keys_procedures_ofConfig]
  constructor
  · rintro ⟨t, d, hd, hunknown, rfl⟩
    exact ⟨.unknownDependency hd ((hknown d).mp hunknown), rfl⟩
  · rintro ⟨hbreaks, hrule⟩
    cases hbreaks with
    | @unknownDependency t d hd hunknown => exact ⟨t, d, hd, (hknown d).mpr hunknown, rfl⟩
    | @unknownRecipe o r _ _ => cases o <;> simp [Violation.rule] at hrule
    | _ => simp [Violation.rule] at hrule

theorem dependencyViolations_sorted : c.Sorted 2 2 (ofConfig c).dependencyViolations := by
  rw [dependencyViolations_eq]
  refine unknownNames_sorted c (fun _ _ => rfl) (fun t d => ?_) (fun t d => ?_)
  · rw [Registry.keys_map]
    rfl
  · rw [declared_eq]
    rfl

/-! ## Unknown recipes -/

/-- Unknown recipes are the unknown names among those that targets invoke, then among those that
recipes do. -/
theorem invocationViolations_eq : (ofConfig c).invocationViolations =
    unknownNames (c.targets.map fun _ t => t.invoked) (ofConfig c).recipes.contains
        (fun t => .unknownRecipe (.target t)) ++
      unknownNames (c.recipes.map fun _ r => r.invoked) (ofConfig c).recipes.contains
        (fun n => .unknownRecipe (.recipe n)) := by
  have htargets : ((ofConfig c).procedures.entries.flatMap fun e =>
      (e.2.invoked.filter fun r => !(ofConfig c).recipes.contains r).map
        (Violation.unknownRecipe (.target e.1))) =
      (c.targets.map fun _ t => t.invoked).entries.flatMap fun e =>
        (e.2.filter fun r => !(ofConfig c).recipes.contains r).map
          (Violation.unknownRecipe (.target e.1)) := by
    show (Registry.entries (c.targets.map fun _ t => (⟨t.setup, t.recipe, t.check⟩ :
      Procedure))).flatMap _ = _
    rw [Registry.entries_map, Registry.entries_map, List.flatMap_map, List.flatMap_map]
    rfl
  have hrecipes : ((ofConfig c).recipes.entries.flatMap fun e =>
      (e.2.invoked.filter fun r => !(ofConfig c).recipes.contains r).map
        (Violation.unknownRecipe (.recipe e.1))) =
      (c.recipes.map fun _ r => r.invoked).entries.flatMap fun e =>
        (e.2.filter fun r => !(ofConfig c).recipes.contains r).map
          (Violation.unknownRecipe (.recipe e.1)) := by
    show (Registry.entries (c.recipes.map Recipe.ofDeclaration)).flatMap _ = _
    rw [Registry.entries_map, Registry.entries_map, List.flatMap_map, List.flatMap_map]
    rfl
  rw [Blueprint.invocationViolations]
  simp only [htargets, hrecipes]
  rw [eraseDups_append_of_disjoint]
  · refine congrArg₂ (· ++ ·)
      (eraseDups_flatMap_unknown _ _ (fun t => .unknownRecipe (.target t)) ?_ ?_)
      (eraseDups_flatMap_unknown _ _ (fun n => .unknownRecipe (.recipe n)) ?_ ?_)
    · exact fun t a b h => (Violation.unknownRecipe.inj h).2
    · exact fun t t' a b h => Owner.target.inj (Violation.unknownRecipe.inj h).1
    · exact fun n a b h => (Violation.unknownRecipe.inj h).2
    · exact fun n n' a b h => Owner.recipe.inj (Violation.unknownRecipe.inj h).1
  · -- no owner is a target and a recipe
    intro v hv hv'
    obtain ⟨e, -, hve⟩ := List.mem_flatMap.mp hv
    obtain ⟨e', -, hve'⟩ := List.mem_flatMap.mp hv'
    obtain ⟨a, -, rfl⟩ := List.mem_map.mp hve
    obtain ⟨b, -, heq⟩ := List.mem_map.mp hve'
    simp at heq

theorem invoked_target_eq (t : String) :
    ((c.targets.map fun _ d => d.invoked).get? t).getD [] = c.invoked (.target t) := by
  rw [Registry.get?_map]
  rfl

theorem invoked_recipe_eq (n : String) :
    ((c.recipes.map fun _ d => d.invoked).get? n).getD [] = c.invoked (.recipe n) := by
  rw [Registry.get?_map]
  rfl

/-- The third and fourth rules are those of the invocations. -/
theorem mem_invocationViolations (v : Violation) :
    v ∈ (ofConfig c).invocationViolations ↔ c.Breaks v ∧ (v.rule = 3 ∨ v.rule = 4) := by
  rw [invocationViolations_eq, List.mem_append, mem_unknownNames, mem_unknownNames]
  simp only [invoked_target_eq, invoked_recipe_eq]
  have hknown : ∀ r, (ofConfig c).recipes.contains r = false ↔ r ∉ c.recipes.keys := by
    intro r
    rw [← Bool.not_eq_true, Registry.contains_iff, Blueprint.keys_recipes_ofConfig]
  constructor
  · rintro (⟨t, r, hr, hunknown, rfl⟩ | ⟨n, r, hr, hunknown, rfl⟩)
    · exact ⟨.unknownRecipe hr ((hknown r).mp hunknown), Or.inl rfl⟩
    · exact ⟨.unknownRecipe hr ((hknown r).mp hunknown), Or.inr rfl⟩
  · rintro ⟨hbreaks, hrule⟩
    cases hbreaks with
    | @unknownRecipe o r hr hunknown =>
      cases o with
      | target t => exact Or.inl ⟨t, r, hr, (hknown r).mpr hunknown, rfl⟩
      | recipe n => exact Or.inr ⟨n, r, hr, (hknown r).mpr hunknown, rfl⟩
    | _ => simp [Violation.rule] at hrule

theorem invocationViolations_sorted : c.Sorted 3 4 (ofConfig c).invocationViolations := by
  rw [invocationViolations_eq]
  refine Config.Sorted.append (show c.Sorted 3 3 _ from ?_) (show c.Sorted 4 4 _ from ?_)
    (by decide) (by decide) (by decide)
  · refine unknownNames_sorted c (fun _ _ => rfl) (fun t r => ?_) (fun t r => ?_)
    · rw [Registry.keys_map]
      rfl
    · rw [invoked_target_eq]
      rfl
  · refine unknownNames_sorted c (fun _ _ => rfl) (fun n r => ?_) (fun n r => ?_)
    · rw [Registry.keys_map]
      rfl
    · rw [invoked_recipe_eq]
      rfl

/-! ## Cycles -/

/-- The search for cycles follows the dependencies on declared targets. -/
theorem follows_graph :
    Follows (ofConfig c).graph.nodes (ofConfig c).graph.dependenciesOf = c.Needs := by
  funext t d
  exact propext (Graph.follows_iff.trans (Blueprint.needs_ofConfig c t d))

/-- The search for cycles follows the invocations of declared recipes. -/
theorem follows_innerRecipes :
    Follows (ofConfig c).recipes.keys (ofConfig c).innerRecipes = c.Nests := by
  funext n r
  refine propext ⟨fun h => (Blueprint.mem_innerRecipes_ofConfig c n r).mp h.2, fun h => ?_⟩
  refine ⟨?_, (Blueprint.mem_innerRecipes_ofConfig c n r).mpr h⟩
  rw [Blueprint.keys_recipes_ofConfig, Registry.mem_keys_iff]
  have hinvoked := h.1
  rw [Config.invoked] at hinvoked
  cases hget : c.recipes.get? n with
  | none => rw [hget] at hinvoked; simp at hinvoked
  | some decl => exact ⟨decl, rfl⟩

/-- A dependency cycle that is found is one of the declared targets. -/
theorem dependencyCycle_isCycle {path : List String}
    (h : (ofConfig c).graph.findCycle = some path) : IsCycle c.Needs path := by
  rw [← follows_graph]
  exact findCycle_isCycle (fun _ _ _ => (Blueprint.graph_consistent c).declared _ _) h

/-- No cycle of dependencies is found exactly when there is none. -/
theorem dependencyCycle_eq_none_iff :
    (ofConfig c).graph.findCycle = none ↔ ¬ Cyclic c.Needs := by
  rw [← follows_graph]
  exact findCycle_eq_none_iff fun _ _ _ => (Blueprint.graph_consistent c).declared _ _

theorem innerRecipes_closed : ∀ n ∈ (ofConfig c).recipes.keys, ∀ r ∈ (ofConfig c).innerRecipes n,
    r ∈ (ofConfig c).recipes.keys := by
  intro n _ r hr
  rw [Blueprint.keys_recipes_ofConfig]
  exact ((Blueprint.mem_innerRecipes_ofConfig c n r).mp hr).2

/-- A recipe cycle that is found is one of the declared recipes. -/
theorem recipeCycle_isCycle {path : List String}
    (h : findCycle (ofConfig c).recipes.keys (ofConfig c).innerRecipes = some path) :
    IsCycle c.Nests path := by
  rw [← follows_innerRecipes]
  exact findCycle_isCycle (innerRecipes_closed c) h

/-- No cycle of recipes is found exactly when there is none. -/
theorem recipeCycle_eq_none_iff :
    findCycle (ofConfig c).recipes.keys (ofConfig c).innerRecipes = none ↔ ¬ Cyclic c.Nests := by
  rw [← follows_innerRecipes]
  exact findCycle_eq_none_iff (innerRecipes_closed c)

/-- The cycles that are reported: one of the dependencies at most and one of the recipes. -/
theorem mem_cycleViolations (v : Violation) : v ∈ (ofConfig c).cycleViolations ↔
    (∃ path, (ofConfig c).graph.findCycle = some path ∧ v = .dependencyCycle path) ∨
    ∃ path, findCycle (ofConfig c).recipes.keys (ofConfig c).innerRecipes = some path ∧
      v = .recipeCycle path := by
  rw [Blueprint.cycleViolations, List.mem_append, Option.mem_toList, Option.mem_toList,
    Option.map_eq_some_iff, Option.map_eq_some_iff]
  simp only [eq_comm (b := v)]

/-- A cycle that is reported is one. -/
theorem cycleViolations_breaks {v : Violation} (hv : v ∈ (ofConfig c).cycleViolations) :
    c.Breaks v ∧ (v.rule = 5 ∨ v.rule = 6) := by
  rcases (mem_cycleViolations c v).mp hv with ⟨path, h, rfl⟩ | ⟨path, h, rfl⟩
  · exact ⟨.dependencyCycle (dependencyCycle_isCycle c h), Or.inl rfl⟩
  · exact ⟨.recipeCycle (recipeCycle_isCycle c h), Or.inr rfl⟩

theorem cycleViolations_sorted : c.Sorted 5 6 (ofConfig c).cycleViolations := by
  have hone : ∀ (path : Option (List String)) (tell : List String → Violation) (k : Nat),
      (∀ p, (tell p).rule = k) → c.Sorted k k (path.map tell).toList := by
    intro path tell k hk
    cases path with
    | none => exact .nil k k
    | some p => exact hk p ▸ .singleton (tell p)
  exact (hone _ .dependencyCycle 5 fun _ => rfl).append (hone _ .recipeCycle 6 fun _ => rfl)
    (by decide) (by decide) (by decide)

/-- A cycle of dependencies is reported exactly when there is one. -/
theorem exists_dependencyCycle_iff :
    (∃ path, .dependencyCycle path ∈ (ofConfig c).cycleViolations) ↔ Cyclic c.Needs := by
  rw [← not_iff_not, ← dependencyCycle_eq_none_iff]
  simp [mem_cycleViolations, Option.eq_none_iff_forall_ne_some]

/-- A cycle of recipes is reported exactly when there is one. -/
theorem exists_recipeCycle_iff :
    (∃ path, .recipeCycle path ∈ (ofConfig c).cycleViolations) ↔ Cyclic c.Nests := by
  rw [← not_iff_not, ← recipeCycle_eq_none_iff]
  simp [mem_cycleViolations, Option.eq_none_iff_forall_ne_some]

/-! ## Targets to start from -/

theorem mem_independent (t : String) : t ∈ (ofConfig c).dependencies.independent ↔
    t ∈ c.targets.keys ∧ c.declared t = [] := by
  have hempty : ∀ l : List String, l.eraseDups = [] ↔ l = [] := by
    intro l
    rw [List.eq_nil_iff_forall_not_mem, List.eq_nil_iff_forall_not_mem]
    simp only [List.mem_eraseDups]
  rw [DependencyIndex.independent]
  show t ∈ ((Registry.entries (c.targets.map fun _ t => t.dependsOn.eraseDups)).filter _).map _ ↔ _
  rw [Registry.entries_map, Config.declared, Registry.mem_keys_iff]
  constructor
  · intro h
    obtain ⟨e, he, rfl⟩ := List.mem_map.mp h
    rw [List.mem_filter, List.isEmpty_iff] at he
    obtain ⟨⟨t, d⟩, hd, rfl⟩ := List.mem_map.mp he.1
    have hget := (c.targets.get?_eq_some_iff t d).mpr hd
    refine ⟨⟨d, hget⟩, ?_⟩
    rw [hget]
    exact (hempty _).mp he.2
  · rintro ⟨⟨d, hget⟩, hnone⟩
    rw [hget] at hnone
    refine List.mem_map.mpr ⟨(t, d.dependsOn.eraseDups), List.mem_filter.mpr ⟨?_, ?_⟩, rfl⟩
    · exact List.mem_map.mpr ⟨(t, d), (c.targets.get?_eq_some_iff t d).mp hget, rfl⟩
    · exact List.isEmpty_iff.mpr ((hempty _).mpr hnone)

/-- The seventh rule: there are targets, and none of them is independent. -/
theorem mem_rootViolations (v : Violation) :
    v ∈ (ofConfig c).rootViolations ↔ c.Breaks v ∧ v.rule = 7 := by
  have hnone : (ofConfig c).dependencies.independent.isEmpty = true ↔
      ∀ t ∈ c.targets.keys, c.declared t ≠ [] := by
    rw [List.isEmpty_iff, List.eq_nil_iff_forall_not_mem]
    simp only [mem_independent, not_and, ne_eq]
  rw [Blueprint.rootViolations]
  constructor
  · intro hv
    split at hv
    next h => rw [List.mem_singleton.mp hv]; exact ⟨.noRootTarget (hnone.mp h), rfl⟩
    next => simp at hv
  · rintro ⟨hbreaks, hrule⟩
    cases hbreaks with
    | noRootTarget h => rw [if_pos (hnone.mpr h)]; exact List.mem_singleton_self _
    | @unknownRecipe o r _ _ => cases o <;> simp [Violation.rule] at hrule
    | _ => simp [Violation.rule] at hrule

theorem rootViolations_sorted : c.Sorted 7 7 (ofConfig c).rootViolations := by
  rw [Blueprint.rootViolations]
  split
  · exact .singleton .noRootTarget
  · exact .nil 7 7

/-! ## Procedures -/

/-- The procedure of a target. -/
def TargetDeclaration.procedure (d : TargetDeclaration) : Procedure := ⟨d.setup, d.recipe, d.check⟩

theorem checkStep?_eq_some_iff (d : TargetDeclaration) (e : Executable) :
    d.procedure.checkStep? = some e ↔ d.CheckedBy e := by
  obtain ⟨dependsOn, setup, recipe, check⟩ := d
  constructor
  · intro h
    cases check with
    | some given => exact Option.some.inj h ▸ .check rfl
    | none =>
      cases recipe with
      | cons first rest => exact Option.some.inj h ▸ .recipe rfl rfl
      | nil =>
        cases setup with
        | nil => simp [TargetDeclaration.procedure, Procedure.checkStep?] at h
        | cons first rest =>
          cases first with
          | command text => simp [TargetDeclaration.procedure, Procedure.checkStep?] at h
          | invocation i => exact Option.some.inj h ▸ .setup rfl rfl rfl
  · rintro (given | ⟨noCheck, first⟩ | ⟨noCheck, noRecipe, first⟩)
    · simp_all [TargetDeclaration.procedure, Procedure.checkStep?]
    · simp_all [TargetDeclaration.procedure, Procedure.checkStep?]
    · simp_all [TargetDeclaration.procedure, Procedure.checkStep?]

/-- Nothing checks a target that has something to install it exactly if all it has is a setup
that begins with a command. -/
theorem checkStep?_eq_none_iff (d : TargetDeclaration) (hsome : ¬ d.IsEmpty) :
    d.procedure.checkStep? = none ↔
      d.check = none ∧ d.recipe = [] ∧ ∃ command rest, d.setup = .command command :: rest := by
  obtain ⟨dependsOn, setup, recipe, check⟩ := d
  simp only [TargetDeclaration.IsEmpty, not_and] at hsome
  cases check with
  | some e => simp [TargetDeclaration.procedure, Procedure.checkStep?]
  | none =>
    cases recipe with
    | cons first rest => simp [TargetDeclaration.procedure, Procedure.checkStep?]
    | nil =>
      cases setup with
      | nil => exact absurd rfl (hsome rfl)
      | cons first rest =>
        cases first <;> simp [TargetDeclaration.procedure, Procedure.checkStep?]

/-- What a target is told of for its procedure. -/
theorem mem_procedureViolations (t : String) (d : TargetDeclaration) (v : Violation) :
    v ∈ (ofConfig c).procedureViolations t d.procedure ↔
      (d.IsEmpty ∧ v = .emptyProcedure t) ∨
      (¬ d.IsEmpty ∧ d.procedure.checkStep? = none ∧ v = .noCheckCommand t) ∨
      (¬ d.IsEmpty ∧ ∃ i r, d.procedure.checkStep? = some (.invocation i) ∧
        c.recipes.get? i.recipe = some r ∧ r.check = none ∧ v = .recipeWithoutCheck i.recipe t) := by
  have hempty : (d.procedure.setup.isEmpty && d.procedure.recipe.isEmpty) = true ↔ d.IsEmpty := by
    rw [Bool.and_eq_true, List.isEmpty_iff, List.isEmpty_iff]
    rfl
  rw [Blueprint.procedureViolations]
  by_cases he : d.IsEmpty
  · rw [if_pos (hempty.mpr he)]
    simp [he]
  · rw [if_neg (mt hempty.mp he)]
    cases hstep : d.procedure.checkStep? with
    | none => simp [he]
    | some e =>
      cases e with
      | command text => simp [he]
      | invocation i =>
        have hget : (ofConfig c).recipes.get? i.recipe =
            (c.recipes.get? i.recipe).map (Recipe.ofDeclaration i.recipe) := Registry.get?_map _ _ _
        simp only [hget]
        cases hr : c.recipes.get? i.recipe with
        | none => simp [he, hr]
        | some r =>
          have hcheck : (Recipe.ofDeclaration i.recipe r).check = r.check := rfl
          cases hrc : r.check <;> simp [he, hr, hcheck, hrc]

/-- A target is told of at most once for its procedure. -/
theorem length_procedureViolations_le (b : Blueprint) (t : String) (p : Procedure) :
    (b.procedureViolations t p).length ≤ 1 := by
  unfold Blueprint.procedureViolations
  repeat' split
  all_goals simp

/-- What all targets are told of for their procedures. -/
theorem mem_allProcedureViolations (v : Violation) :
    (v ∈ (ofConfig c).procedures.entries.flatMap fun e =>
      (ofConfig c).procedureViolations e.1 e.2) ↔ c.Breaks v ∧ v.rule = 8 := by
  show v ∈ (Registry.entries (c.targets.map fun _ d => d.procedure)).flatMap _ ↔ _
  rw [Registry.entries_map, List.flatMap_map, List.mem_flatMap]
  constructor
  · rintro ⟨⟨t, d⟩, hd, hv⟩
    have hget := (c.targets.get?_eq_some_iff t d).mpr hd
    rcases (mem_procedureViolations c t d v).mp hv with
      ⟨he, rfl⟩ | ⟨hsome, hnone, rfl⟩ | ⟨hsome, i, r, hstep, hr, hnone, rfl⟩
    · exact ⟨.emptyProcedure hget he, rfl⟩
    · obtain ⟨hcheck, hrecipe, command, rest, hraw⟩ := (checkStep?_eq_none_iff d hsome).mp hnone
      exact ⟨.noCheckCommand hget hcheck hrecipe hraw, rfl⟩
    · exact ⟨.recipeWithoutCheck hget hsome ((checkStep?_eq_some_iff d _).mp hstep) hr hnone, rfl⟩
  · rintro ⟨hbreaks, hrule⟩
    cases hbreaks with
    | @emptyProcedure t d hget he =>
      exact ⟨(t, d), (c.targets.get?_eq_some_iff t d).mp hget,
        (mem_procedureViolations c t d _).mpr (Or.inl ⟨he, rfl⟩)⟩
    | @noCheckCommand t d command rest hget hcheck hrecipe hraw =>
      have hsome : ¬ d.IsEmpty := fun he => by simp [he.1] at hraw
      refine ⟨(t, d), (c.targets.get?_eq_some_iff t d).mp hget,
        (mem_procedureViolations c t d _).mpr (Or.inr (Or.inl ⟨hsome, ?_, rfl⟩))⟩
      exact (checkStep?_eq_none_iff d hsome).mpr ⟨hcheck, hrecipe, command, rest, hraw⟩
    | @recipeWithoutCheck t d i r hget hsome hchecked hr hnone =>
      exact ⟨(t, d), (c.targets.get?_eq_some_iff t d).mp hget,
        (mem_procedureViolations c t d _).mpr (Or.inr (Or.inr
          ⟨hsome, i, r, (checkStep?_eq_some_iff d _).mpr hchecked, hr, hnone, rfl⟩))⟩
    | @unknownRecipe o r _ _ => cases o <;> simp [Violation.rule] at hrule
    | _ => simp [Violation.rule] at hrule

/-- The violation of a procedure is placed by its target. -/
theorem ownerPlace_procedureViolations {t : String} {d : TargetDeclaration} {v : Violation}
    (hv : v ∈ (ofConfig c).procedureViolations t d.procedure) :
    v.rule = 8 ∧ c.ownerPlace v = c.targets.keys.idxOf t := by
  rcases (mem_procedureViolations c t d v).mp hv with
    ⟨-, rfl⟩ | ⟨-, -, rfl⟩ | ⟨-, i, r, -, -, -, rfl⟩
  · exact ⟨rfl, rfl⟩
  · exact ⟨rfl, rfl⟩
  · exact ⟨rfl, rfl⟩

theorem allProcedureViolations_sorted : c.Sorted 8 8 ((ofConfig c).procedures.entries.flatMap
    fun e => (ofConfig c).procedureViolations e.1 e.2) := by
  refine ⟨?_, fun v hv => ?_⟩
  · show ((Registry.entries (c.targets.map fun _ d => d.procedure)).flatMap _).Pairwise _
    rw [Registry.entries_map, List.flatMap_map, List.pairwise_flatMap]
    constructor
    · intro e _
      have hlen := length_procedureViolations_le (ofConfig c) e.1 e.2.procedure
      match (ofConfig c).procedureViolations e.1 e.2.procedure, hlen with
      | [], _ => exact .nil
      | [v], _ => exact List.pairwise_singleton _ _
    · refine (entries_pairwise c.targets).imp fun {e e'} hplace v hv w hw => ?_
      obtain ⟨hrule, hv⟩ := ownerPlace_procedureViolations c hv
      obtain ⟨hrule', hw⟩ := ownerPlace_procedureViolations c hw
      exact Or.inr ⟨hrule.trans hrule'.symm, Or.inl (by rw [hv, hw]; exact hplace)⟩
  · have hrule := ((mem_allProcedureViolations c v).mp hv).2
    omega

end Provision
