import Provision.Config
import Provision.Yaml.Value.Read

/-!
# Reading configurations

The declarations decoded from a document. Declarations know their fields: an unknown or a
repeated one is an error. Names of targets, recipes, defaults and arguments are free, and
writing one of them again replaces what stood there.

> `Config.parse`: the configuration that a text declares.

Mirrors `parse` and the derived deserialisers of the declarations. Each derived one is written
out: the fields gathered one by one, `once` for the error on a field that is given twice,
`required` and the defaults at the end. An executable and its arguments are untagged unions,
so their nodes are kept first and then tried in the order of the declaration.
-/

namespace Provision

open Yaml (Value Loose Decode)
open Yaml.Decode (Target)

namespace Yaml.Decode

/-- The name of a field, one of those that are known. -/
def fieldName (known : List String) (key : Target) : Decode String := do
  let key ← follow key
  let name ← string "field identifier" key
  if known.contains name then return name
  else placed key.path key.node.mark (complain (.unknownField name known))

/-- The value of a field that has not been given before. -/
def once {α : Type} (name : String) (given : Option α) (d : Decode α) : Decode (Option α) :=
  if given.isSome then complain (.duplicateField name) else some <$> d

/-- The value of a field that has to be given. -/
def required {α : Type} (name : String) (given : Option α) : Decode α :=
  match given with
  | some x => return x
  | none => complain (.missingField name)

/-- A mapping from free names. -/
def registry {α : Type} (item : Nat → Target → Decode α) : Nat → Target → Decode (Registry α) :=
  mapping "a map" ∅
    (fun depth r k v => do
      let name ← string "a string" k
      return r.insert name (← item depth v))
    pure

/-- A list of strings. -/
def strings : Nat → Target → Decode (List String) := sequence fun _ => string "a string"

end Yaml.Decode

open Yaml.Decode

/-! ## Executables -/

namespace Arguments

/-- The arguments that a loosely read value describes. -/
def ofLoose? : Loose → Option Arguments
  | .sequence items => (Loose.values? items).map .positional
  | .mapping es => do
    let named ← es.mapM fun e => match e.1 with
      | .string name => e.2.value?.map fun v => (name, v)
      | _ => none
    return .named (Registry.ofList named)
  | _ => none

/-- Reads arguments. -/
def decode (depth : Nat) (t : Target) : Decode Arguments := do
  match ofLoose? (← loose depth t) with
  | some a => return a
  | none => complain (.noVariant "RecipeArgs")

end Arguments

namespace Invocation

/-- The fields of an invocation. -/
def fieldNames : List String := ["recipe", "args"]

/-- The fields that have been given. -/
structure Fields where
  recipe : Option String := none
  args : Option Arguments := none

/-- Reads one field. -/
def decodeField (depth : Nat) (f : Fields) (k v : Target) : Decode Fields := do
  match ← fieldName fieldNames k with
  | "recipe" => return { f with recipe := ← once "recipe" f.recipe (string "a string" v) }
  | _ => return { f with args := ← once "args" f.args (Arguments.decode depth v) }

/-- The invocation with the given fields. -/
def ofFields (f : Fields) : Decode Invocation := do
  return ⟨← required "recipe" f.recipe, f.args.getD .empty⟩

/-- Reads an invocation. -/
def decode : Nat → Target → Decode Invocation :=
  mapping "struct RecipeInvocation" {} decodeField ofFields

/-- Adds a field of a loosely read mapping. A key is a field's name or its number, which is not
written with a minus sign. -/
def addLoose? (f : Fields) (e : Loose × Loose) : Option Fields :=
  match e.1, e.2 with
  | .string "recipe", .string r | .integer 0 false, .string r =>
    if f.recipe.isSome then none else some { f with recipe := some r }
  | .string "args", a | .integer 1 false, a =>
    if f.args.isSome then none else (Arguments.ofLoose? a).map fun a => { f with args := some a }
  | _, _ => none

/-- The invocation that a loosely read value describes: a mapping with its fields, or a
sequence of its fields in order. -/
def ofLoose? : Loose → Option Invocation
  | .sequence [.string r] => some ⟨r, .empty⟩
  | .sequence [.string r, a] => (Arguments.ofLoose? a).map fun a => ⟨r, a⟩
  | .mapping es => do
    let f ← es.foldlM addLoose? ({} : Fields)
    return ⟨← f.recipe, f.args.getD .empty⟩
  | _ => none

end Invocation

namespace Executable

/-- The executable that a loosely read value describes: a string is a command. -/
def ofLoose? : Loose → Option Executable
  | .string s => some (.command s)
  | v => (Invocation.ofLoose? v).map .invocation

/-- Reads an executable. -/
def decode (depth : Nat) (t : Target) : Decode Executable := do
  match ofLoose? (← loose depth t) with
  | some e => return e
  | none => complain (.noVariant "Executable")

end Executable

/-! ## Declarations -/

namespace TargetDeclaration

/-- The fields of a target. -/
def fieldNames : List String := ["depends_on", "setup", "recipe", "check"]

/-- The fields that have been given. -/
structure Fields where
  dependsOn : Option (List String) := none
  setup : Option (List Executable) := none
  recipe : Option (List Executable) := none
  check : Option (Option Executable) := none

/-- Reads one field. -/
def decodeField (depth : Nat) (f : Fields) (k v : Target) : Decode Fields := do
  match ← fieldName fieldNames k with
  | "depends_on" =>
    return { f with dependsOn := ← once "depends_on" f.dependsOn (strings depth v) }
  | "setup" =>
    return { f with setup := ← once "setup" f.setup (sequence Executable.decode depth v) }
  | "recipe" =>
    return { f with recipe := ← once "recipe" f.recipe (sequence Executable.decode depth v) }
  | _ => return { f with check := ← once "check" f.check (option (Executable.decode depth) v) }

/-- The target with the given fields. -/
def ofFields (f : Fields) : TargetDeclaration :=
  ⟨f.dependsOn.getD [], f.setup.getD [], f.recipe.getD [], f.check.getD none⟩

/-- Reads a target. -/
def decode : Nat → Target → Decode TargetDeclaration :=
  mapping "struct TargetDecl" {} decodeField fun f => pure (ofFields f)

end TargetDeclaration

namespace RecipeDeclaration

/-- The fields of a recipe. -/
def fieldNames : List String := ["description", "params", "defaults", "check", "setup"]

/-- The fields that have been given. -/
structure Fields where
  description : Option (Option String) := none
  params : Option (List String) := none
  defaults : Option (Registry Value) := none
  check : Option (Option String) := none
  setup : Option (List Executable) := none

/-- Reads one field. -/
def decodeField (depth : Nat) (f : Fields) (k v : Target) : Decode Fields := do
  match ← fieldName fieldNames k with
  | "description" =>
    return { f with
      description := ← once "description" f.description (option (string "a string") v) }
  | "params" => return { f with params := ← once "params" f.params (strings depth v) }
  | "defaults" =>
    return { f with defaults := ← once "defaults" f.defaults (registry value depth v) }
  | "check" => return { f with check := ← once "check" f.check (option (string "a string") v) }
  | _ => return { f with setup := ← once "setup" f.setup (sequence Executable.decode depth v) }

/-- The recipe with the given fields. -/
def ofFields (f : Fields) : RecipeDeclaration :=
  ⟨f.description.getD none, f.params.getD [], f.defaults.getD ∅, f.check.getD none,
    f.setup.getD []⟩

/-- Reads a recipe. -/
def decode : Nat → Target → Decode RecipeDeclaration :=
  mapping "struct RecipeDecl" {} decodeField fun f => pure (ofFields f)

end RecipeDeclaration

namespace Config

/-- The fields of a configuration. -/
def fieldNames : List String := ["version", "name", "description", "shell", "recipes", "targets"]

/-- The fields that have been given. -/
structure Fields where
  version : Option String := none
  name : Option String := none
  description : Option (Option String) := none
  shell : Option String := none
  recipes : Option (Registry RecipeDeclaration) := none
  targets : Option (Registry TargetDeclaration) := none

/-- Reads one field. -/
def decodeField (depth : Nat) (f : Fields) (k v : Target) : Decode Fields := do
  match ← fieldName fieldNames k with
  | "version" => return { f with version := ← once "version" f.version (string "a string" v) }
  | "name" => return { f with name := ← once "name" f.name (string "a string" v) }
  | "description" =>
    return { f with
      description := ← once "description" f.description (option (string "a string") v) }
  | "shell" => return { f with shell := ← once "shell" f.shell (string "a string" v) }
  | "recipes" =>
    return { f with
      recipes := ← once "recipes" f.recipes (registry RecipeDeclaration.decode depth v) }
  | _ =>
    return { f with
      targets := ← once "targets" f.targets (registry TargetDeclaration.decode depth v) }

/-- The configuration with the given fields. -/
def ofFields (f : Fields) : Decode Config := do
  let version ← required "version" f.version
  let name ← required "name" f.name
  return ⟨version, name, f.description.getD none, f.shell.getD "sh", f.recipes.getD ∅,
    f.targets.getD ∅⟩

/-- Reads a configuration. -/
def decode : Nat → Target → Decode Config :=
  mapping "struct SystemconfFile" {} decodeField ofFields

/-- The configuration that a text declares. -/
def parse (text : String) : Except Yaml.Error Config := Yaml.decode (decode maxDepth) text

end Config

end Provision
