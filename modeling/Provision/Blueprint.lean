import Provision.Recipe.Expansion
import Provision.Graph.Traversal
import Provision.Graph.Cycle
import Provision.Log

/-!
# Blueprints

A blueprint is a configuration together with what is derived from it: the procedure of each
target, the recipes by name, the dependencies and their graph. Deriving never fails; names
that nothing declares are carried along for the validation to report.

> `checkStep?`: the explicit check, else the first step of `recipe`, else an invocation that
> `setup` begins with.

Mirrors `from_ast` with `get_executable_index`, `get_recipe_definition_index` and
`get_dependencies`; `checkStep?`, `installSteps` and `executables` mirror `check_procedure`,
`install_procedure` and `executables`. The three indexes are registries in the order of the
configuration.
-/

namespace Provision

/-- How a target is checked and installed. -/
structure Procedure where
  setup : List Executable := []
  recipe : List Executable := []
  check : Option Executable := none
deriving DecidableEq

namespace Procedure

/-- What is run to install the target. -/
def installSteps (p : Procedure) : List Executable :=
  if p.setup.isEmpty then p.recipe else p.setup

/-- What is run to check the target. A plain setup command is never used as a check. -/
def checkStep? (p : Procedure) : Option Executable :=
  match p.check, p.recipe, p.setup with
  | some check, _, _ => some check
  | none, first :: _, _ => some first
  | none, [], .invocation i :: _ => some (.invocation i)
  | none, [], _ => none

/-- All that the target refers to. -/
def executables (p : Procedure) : List Executable := p.check.toList ++ p.setup ++ p.recipe

/-- The recipes that the target invokes. -/
def invoked (p : Procedure) : List String := p.executables.filterMap Executable.invoked?

end Procedure

/-- A configuration with all that is derived from it. -/
structure Blueprint where
  config : Config
  procedures : Registry Procedure
  recipes : RecipeIndex
  dependencies : DependencyIndex
  graph : Graph

namespace Blueprint

/-- The procedures of a configuration. -/
def proceduresOf (c : Config) : Registry Procedure :=
  c.targets.map fun _ t => ⟨t.setup, t.recipe, t.check⟩

/-- The dependencies of a configuration. A repeated name counts where it stands first. -/
def dependencyIndex (c : Config) : DependencyIndex :=
  c.targets.map fun _ t => t.dependsOn.eraseDups

/-- The blueprint of a configuration. -/
def ofConfig (c : Config) : Blueprint :=
  let dependencies := dependencyIndex c
  { config := c
    procedures := proceduresOf c
    recipes := c.recipes.map Recipe.ofDeclaration
    dependencies := dependencies
    graph := Graph.build dependencies }

/-- The targets in the order of their declaration. -/
def targets (b : Blueprint) : List String := b.procedures.keys

/-- What a target depends on; an unknown one depends on nothing. -/
def dependenciesOf (b : Blueprint) (target : String) : List String :=
  (b.dependencies.get? target).getD []

/-- The targets in the order of installation. -/
def order (b : Blueprint) : List String := Traversal.order b.graph none

/-- The program that runs commands. -/
def shell (b : Blueprint) : String := b.config.shell

/-- What the log tells about the derivation of a graph. -/
def graphEntry (g : Graph) : Log.Entry :=
  ⟨.debug, .graph, s!"dependency graph: {g.nodeCount} nodes, {g.edgeCount} edges"⟩

/-- What the log tells about the derivation. -/
def journal (b : Blueprint) : List Log.Entry :=
  [graphEntry b.graph,
   ⟨.debug, .data, s!"indexed {b.procedures.size} targets, {b.recipes.size} recipes"⟩]

end Blueprint

end Provision
