import Provision.Recipe.Binding

/-!
# Expanding recipes into commands

The setup of a recipe may invoke other recipes. The values of the outer recipe are put into
the arguments of the inner invocation, which is then bound and expanded in its place. Values
are never read as templates again.

> `expand`: the commands of a setup, nested at most so many levels deep.

Mirrors `get_check_command`, `get_setup_commands`, `expand_setup`, `substitute_args`,
`lookup`, `resolve_check` and `resolve_setup`. The program counts the depth upwards and
compares it with the limit; here the levels that are left are counted down.
-/

namespace Provision

/-- Recipes by name. -/
abbrev RecipeIndex := Registry Recipe

namespace Recipe

/-- How many recipes may be expanded inside one another, the outermost included. -/
def maxDepth : Nat := 32

/-- The recipe of a name. -/
def lookup (index : RecipeIndex) (name : String) : Except RecipeError Recipe :=
  match index.get? name with
  | some r => .ok r
  | none => .error (.unknownRecipe name)

/-- An argument of an inner invocation: strings are templates, other values stay. -/
def substituteValue (r : Recipe) (b : Bindings) : Yaml.Value → Except RecipeError Yaml.Value
  | .string s => (substitute r.name s b).map .string
  | v => .ok v

/-- Puts values into entries in order. -/
def substituteEntries (r : Recipe) (b : Bindings) :
    List (String × Yaml.Value) → Except RecipeError (List (String × Yaml.Value))
  | [] => .ok []
  | (k, v) :: rest => do
    let v ← r.substituteValue b v
    return (k, v) :: (← substituteEntries r b rest)

/-- The arguments of an inner invocation with values put in. -/
def substituteArguments (r : Recipe) (b : Bindings) : Arguments → Except RecipeError Arguments
  | .positional values => (values.mapM (r.substituteValue b)).map .positional
  | .named values => do
    return .named (Registry.ofList (← r.substituteEntries b values.entries))

/-- The commands of a setup, where `levels` recipes may be nested from here on. -/
def expand (index : RecipeIndex) : Nat → Recipe → Bindings → Except RecipeError (List String)
  | 0, r, _ => .error (.tooDeep r.name maxDepth)
  | levels + 1, r, b =>
    (r.setup.mapM fun e => match e with
      | Executable.command t => (substitute r.name t b).map ([·])
      | Executable.invocation i => do
        let inner ← lookup index i.recipe
        let a ← r.substituteArguments b i.arguments
        let b' ← inner.bind a
        expand index levels inner b').map List.flatten

/-- The command that checks. -/
def checkCommand (r : Recipe) (a : Arguments) : Except RecipeError String :=
  match r.check with
  | none => .error (.missingCheck r.name)
  | some template => do substitute r.name template (← r.bind a)

/-- The commands that install. -/
def setupCommands (r : Recipe) (a : Arguments) (index : RecipeIndex) :
    Except RecipeError (List String) := do
  expand index maxDepth r (← r.bind a)

end Recipe

namespace Invocation

/-- The command that checks, by the name of the recipe. -/
def checkCommand (i : Invocation) (index : RecipeIndex) : Except RecipeError String := do
  (← Recipe.lookup index i.recipe).checkCommand i.arguments

/-- The commands that install, by the name of the recipe. -/
def setupCommands (i : Invocation) (index : RecipeIndex) : Except RecipeError (List String) := do
  (← Recipe.lookup index i.recipe).setupCommands i.arguments index

end Invocation

end Provision
