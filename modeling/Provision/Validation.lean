import Provision.Blueprint

/-!
# Validation

A blueprint is valid if nothing in it refers to a name that is not declared, nothing depends
on or invokes itself in a circle, there is a target to start from, and each target can be
checked and installed. All violations are reported together.

> `violations`: what is wrong with a blueprint, in a fixed order.

Mirrors `validate` with `check_header`, `check_dependencies`, `check_recipe_references`,
`find_recipe_cycle` and `check_procedures`, and `ValidationErrors`. The errors that each of
them pushes onto a common list are a list of its own, and the lists are put together in the
order of the calls.
-/

namespace Provision

/-- Who invokes a recipe. -/
inductive Owner
  | target (name : String)
  | recipe (name : String)
deriving DecidableEq, Repr

/-- The wording of an owner. -/
def Owner.text : Owner → String
  | target name => s!"target '{name}'"
  | recipe name => s!"recipe '{name}'"

/-- A rule that a blueprint breaks. -/
inductive Violation
  | unsupportedVersion (version : String)
  | emptyName
  | unknownDependency (target dependency : String)
  | unknownRecipe (owner : Owner) (recipe : String)
  | dependencyCycle (path : List String)
  | recipeCycle (path : List String)
  | noRootTarget
  | emptyProcedure (target : String)
  | noCheckCommand (target : String)
  | recipeWithoutCheck (recipe target : String)
deriving DecidableEq, Repr

namespace Violation

/-- The wording of a violation. -/
def message : Violation → String
  | unsupportedVersion v => s!"version must be \"1.0\", got \"{v}\""
  | emptyName => "name must not be empty"
  | unknownDependency t d => s!"target '{t}' depends on unknown target '{d}'"
  | unknownRecipe owner r => s!"{owner.text} invokes unknown recipe '{r}'"
  | dependencyCycle path => "dependency cycle detected: " ++ " -> ".intercalate path
  | recipeCycle path => "recipe cycle detected: " ++ " -> ".intercalate path
  | noRootTarget => "no target without dependencies; nothing to start from"
  | emptyProcedure t => s!"target '{t}' has neither setup nor recipe commands"
  | noCheckCommand t => s!"target '{t}' only has raw setup commands and needs an explicit check"
  | recipeWithoutCheck r t =>
    s!"recipe '{r}' has no check command but is used to check target '{t}'"

/-- How many violations there are. -/
def countText (vs : List Violation) : String := s!"{vs.length} validation error(s)"

/-- All violations, one on each line after their number. -/
def report (vs : List Violation) : String :=
  countText vs ++ String.join (vs.map fun v => "\n  " ++ v.message)

end Violation

namespace Blueprint

/-- The version that configurations have to state. -/
def supportedVersion : String := "1.0"

/-- Violations of the header. -/
def headerViolations (b : Blueprint) : List Violation :=
  (if b.config.version = supportedVersion then [] else [.unsupportedVersion b.config.version]) ++
    (if b.config.name = "" then [.emptyName] else [])

/-- Dependencies on names that are no targets. -/
def dependencyViolations (b : Blueprint) : List Violation :=
  b.dependencies.entries.flatMap fun e =>
    (e.2.filter fun d => !b.procedures.contains d).map fun d => .unknownDependency e.1 d

/-- Invocations of names that are no recipes, each told once for each owner. -/
def invocationViolations (b : Blueprint) : List Violation :=
  let unknown (owner : Owner) (names : List String) : List Violation :=
    (names.filter fun r => !b.recipes.contains r).map fun r => .unknownRecipe owner r
  ((b.procedures.entries.flatMap fun e => unknown (.target e.1) e.2.invoked) ++
    b.recipes.entries.flatMap fun e => unknown (.recipe e.1) e.2.invoked).eraseDups

/-- The declared recipes that a recipe invokes. -/
def innerRecipes (b : Blueprint) (name : String) : List String :=
  match b.recipes.get? name with
  | some r => r.invoked.filter b.recipes.contains
  | none => []

/-- Circles of dependencies and of invocations. -/
def cycleViolations (b : Blueprint) : List Violation :=
  (b.graph.findCycle.map .dependencyCycle).toList ++
    ((findCycle b.recipes.keys b.innerRecipes).map .recipeCycle).toList

/-- The lack of a target to start from. -/
def rootViolations (b : Blueprint) : List Violation :=
  if b.dependencies.independent.isEmpty then [.noRootTarget] else []

/-- What the procedure of a target lacks. -/
def procedureViolations (b : Blueprint) (target : String) (p : Procedure) : List Violation :=
  if p.setup.isEmpty && p.recipe.isEmpty then [.emptyProcedure target]
  else match p.checkStep? with
    | none => [.noCheckCommand target]
    | some (.command _) => []
    | some (.invocation i) =>
      match b.recipes.get? i.recipe with
      | some r => if r.check.isNone then [.recipeWithoutCheck i.recipe target] else []
      | none => []

/-- All violations, in order. -/
def violations (b : Blueprint) : List Violation :=
  b.headerViolations ++ b.dependencyViolations ++ b.invocationViolations ++ b.cycleViolations ++
    b.rootViolations ++ b.procedures.entries.flatMap fun e => b.procedureViolations e.1 e.2

/-- Whether nothing is violated. -/
def isValid (b : Blueprint) : Bool := b.violations.isEmpty

/-- What the log tells about a valid blueprint. -/
def validEntry (b : Blueprint) : Log.Entry :=
  ⟨.debug, .validator,
    s!"validated {b.config.name} ({b.procedures.size} targets, {b.recipes.size} recipes)"⟩

end Blueprint

end Provision
