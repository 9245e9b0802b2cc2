import Provision.Recipe

/-!
# Binding arguments to parameters

Positional arguments go to the parameters in order, named ones to the parameters of their
names. Then each parameter in order takes what was supplied for it, or else its default.
A supplied value is taken once.

Mirrors `bind_arguments`. A supplied value that has been taken is erased and not swapped with
the last one: the map is only looked up by name afterwards, so that its order does not matter.
-/

namespace Provision

namespace Recipe

/-- The values that a caller supplies, by parameter. -/
def supplied (r : Recipe) : Arguments → Except RecipeError (Registry String)
  | .positional values =>
    if r.params.length < values.length then
      .error (.tooManyArguments r.name r.params.length values.length)
    else .ok (Registry.ofList (r.params.zip (values.map Yaml.Value.text)))
  | .named values =>
    match values.keys.find? fun k => !r.params.contains k with
    | some k => .error (.unexpectedArgument r.name k)
    | none => .ok (values.map fun _ v => v.text)

/-- Gives each parameter what is supplied for it or its default. -/
def fill (r : Recipe) : List String → Registry String → Bindings → Except RecipeError Bindings
  | [], _, b => .ok b
  | p :: ps, given, b =>
    match given.get? p with
    | some v => fill r ps (given.erase p) (b.insert p v)
    | none =>
      match r.defaults.get? p with
      | some v => fill r ps given (b.insert p v)
      | none => .error (.missingArgument r.name p)

/-- The values of all parameters. -/
def bind (r : Recipe) (a : Arguments) : Except RecipeError Bindings := do
  fill r r.params (← r.supplied a) ∅

end Recipe

end Provision
