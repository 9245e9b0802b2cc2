import Provision.Config
import Provision.Recipe.Template

/-!
# Recipes

A recipe is a procedure with parameters. Its defaults are kept as the texts that they put
into commands.

Mirrors `RecipeDefinition` with `from_decl`, and `RecipeExpansionError`.
-/

namespace Provision

/-- A recipe with its name. -/
structure Recipe where
  name : String
  description : Option String := none
  params : List String := []
  defaults : Registry String := ∅
  check : Option String := none
  setup : List Executable := []
deriving DecidableEq

/-- Values of parameters. -/
abbrev Bindings := Registry String

/-- Why a recipe gives no commands. -/
inductive RecipeError
  | unknownRecipe (name : String)
  | tooManyArguments (recipe : String) (expected got : Nat)
  | unexpectedArgument (recipe argument : String)
  | missingArgument (recipe param : String)
  | unknownParameter (recipe placeholder : String)
  | missingCheck (recipe : String)
  | tooDeep (recipe : String) (limit : Nat)
deriving DecidableEq, Repr

/-- The wording of the reason. -/
def RecipeError.message : RecipeError → String
  | unknownRecipe name => s!"unknown recipe '{name}'"
  | tooManyArguments recipe expected got =>
    s!"recipe '{recipe}' takes {expected} argument(s), got {got}"
  | unexpectedArgument recipe argument => s!"recipe '{recipe}' has no parameter '{argument}'"
  | missingArgument recipe param => s!"recipe '{recipe}' requires argument '{param}'"
  | unknownParameter recipe p =>
    s!"recipe '{recipe}' references unknown parameter '\x7b{p}\x7d' " ++
      s!"(write '\x7b\x7b{p}\x7d\x7d' for literal braces)"
  | missingCheck recipe => s!"recipe '{recipe}' has no check command"
  | tooDeep recipe limit => s!"recipe nesting deeper than {limit} at '{recipe}'"

namespace Recipe

/-- The recipe that a declaration gives to a name. -/
def ofDeclaration (name : String) (d : RecipeDeclaration) : Recipe :=
  { name := name
    description := d.description
    params := d.params
    defaults := d.defaults.map fun _ v => v.text
    check := d.check
    setup := d.setup }

/-- The recipes that the setup invokes, in order. -/
def invoked (r : Recipe) : List String := r.setup.filterMap Executable.invoked?

/-- A template with values put in. -/
def substitute (recipe : String) (template : String) (b : Bindings) :
    Except RecipeError String :=
  (Template.render b.get? template).mapError (.unknownParameter recipe)

end Recipe

end Provision
