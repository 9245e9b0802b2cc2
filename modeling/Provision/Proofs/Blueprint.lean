import Provision.Load
import Provision.Proofs.Distinct
import Provision.Proofs.Graph.Order

/-!
# What a configuration declares, and its blueprint

A configuration declares relations among names: what a target depends on, and which recipes a
target or a recipe invokes. Restricted to declared names they are the relations whose cycles
matter. The blueprint of a configuration holds the same relations, taken apart into indices and
a graph.

> `mem_dependenciesOf_ofConfig`: the dependency index tells what is declared;
> `needs_ofConfig`: the graph tells what is declared among targets;
> `mem_innerRecipes_ofConfig`: the inner recipes are what is declared among recipes.
-/

namespace Provision

/-! ## Declared relations -/

/-- The recipes that a target invokes: through its check, its setup or its recipe. -/
def TargetDeclaration.invoked (d : TargetDeclaration) : List String :=
  (d.check.toList ++ d.setup ++ d.recipe).filterMap Executable.invoked?

/-- The recipes that the setup of a recipe invokes. -/
def RecipeDeclaration.invoked (d : RecipeDeclaration) : List String :=
  d.setup.filterMap Executable.invoked?

namespace Config

/-- The dependencies of a target as they are written; an unknown name has none. -/
def declared (c : Config) (target : String) : List String :=
  ((c.targets.get? target).map TargetDeclaration.dependsOn).getD []

/-- The recipes that a target or a recipe invokes as they are written. -/
def invoked (c : Config) : Owner → List String
  | .target t => ((c.targets.get? t).map TargetDeclaration.invoked).getD []
  | .recipe n => ((c.recipes.get? n).map RecipeDeclaration.invoked).getD []

/-- Whether a target declares that it depends on a name. -/
def DependsOn (c : Config) (t d : String) : Prop := d ∈ c.declared t

instance (c : Config) (t d : String) : Decidable (c.DependsOn t d) :=
  inferInstanceAs (Decidable (d ∈ c.declared t))

/-- Whether a target depends on a declared target. -/
def Needs (c : Config) (t d : String) : Prop := c.DependsOn t d ∧ d ∈ c.targets.keys

/-- Whether a recipe invokes a declared recipe. -/
def Nests (c : Config) (n r : String) : Prop := r ∈ c.invoked (.recipe n) ∧ r ∈ c.recipes.keys

end Config

/-! ## The blueprint -/

namespace Blueprint

variable (c : Config)

@[simp] theorem keys_procedures_ofConfig :
    (ofConfig c).procedures.keys = c.targets.keys := Registry.keys_map _ _

@[simp] theorem keys_recipes_ofConfig : (ofConfig c).recipes.keys = c.recipes.keys :=
  Registry.keys_map _ _

@[simp] theorem keys_dependencies_ofConfig :
    (ofConfig c).dependencies.keys = c.targets.keys := Registry.keys_map _ _

/-- The nodes of the graph are the declared targets: dependencies on undeclared names are no
edges. -/
@[simp] theorem nodes_ofConfig : (ofConfig c).graph.nodes = c.targets.keys := by
  show (Graph.build (dependencyIndex c)).nodes = _
  rw [Graph.nodes_build]
  exact keys_dependencies_ofConfig c

/-- Every dependency is listed with its dependents and the other way round, because both tables
are filled from one index. -/
theorem graph_consistent : (ofConfig c).graph.Consistent :=
  Graph.build_consistent (dependencyIndex c)

/-- The index lists what is declared, each name where it stands first. -/
theorem dependenciesOf_ofConfig (t : String) :
    (ofConfig c).dependenciesOf t = (c.declared t).eraseDups := by
  show ((dependencyIndex c).get? t).getD [] = _
  rw [dependencyIndex, Registry.get?_map, Config.declared]
  cases c.targets.get? t with
  | none => rfl
  | some decl => rfl

/-- An edge of the graph is a declared dependency between two declared targets. -/
theorem mem_dependenciesOf_ofConfig (t d : String) :
    d ∈ (ofConfig c).dependenciesOf t ↔ c.DependsOn t d := by
  rw [dependenciesOf_ofConfig, List.mem_eraseDups]
  rfl

/-- The graph tells what the targets depend on among themselves. -/
theorem needs_ofConfig (t d : String) : (ofConfig c).graph.Needs t d ↔ c.Needs t d := by
  show d ∈ (Graph.build (dependencyIndex c)).dependenciesOf t ↔ _
  rw [Graph.mem_dependenciesOf_build, Config.Needs, ← mem_dependenciesOf_ofConfig]
  have hkeys : (dependencyIndex c).keys = c.targets.keys := keys_dependencies_ofConfig c
  rw [hkeys]
  rfl

/-- The inner recipes are what the recipes invoke among themselves. -/
theorem mem_innerRecipes_ofConfig (n r : String) :
    r ∈ (ofConfig c).innerRecipes n ↔ c.Nests n r := by
  have hget : (ofConfig c).recipes.get? n = (c.recipes.get? n).map (Recipe.ofDeclaration n) :=
    Registry.get?_map _ _ _
  rw [innerRecipes, hget, Config.Nests, Config.invoked]
  cases c.recipes.get? n with
  | none => simp
  | some decl =>
    simp only [Option.map_some, Option.getD_some, List.mem_filter, Registry.contains_iff,
      keys_recipes_ofConfig]
    rfl

end Blueprint

/-! ## Acceptance -/

/-- A configuration is accepted exactly if nothing in its blueprint is violated. -/
theorem Loaded.ofConfig_eq_ok_iff (c : Config) (b : Blueprint) :
    (Loaded.ofConfig c).result = .ok b ↔
      b = Blueprint.ofConfig c ∧ (Blueprint.ofConfig c).violations = [] := by
  rw [Loaded.ofConfig]
  split
  next hvalid => simp [hvalid, eq_comm]
  next hinvalid => simpa using fun _ => hinvalid

end Provision
