import Provision.Config
import Provision.Yaml.Outline.Render

/-!
# Writing configurations

A configuration as a document: every field in the order of its declaration, absent ones as
null, and an invocation always with its arguments.

Mirrors the derived serialisers of the declarations, for YAML.
-/

namespace Provision

open Yaml (Outline WriteError)

/-- The entries of a registry as a mapping. -/
def Registry.outline {α : Type} (r : Registry α) (f : α → Except WriteError Outline) :
    Except WriteError Outline := do
  return .fields (← r.entries.mapM fun e => (f e.2).map (e.1, ·))

/-- Strings as a sequence. -/
def Yaml.Outline.strings (l : List String) : Outline := .sequence none (l.map string)

/-- Arguments: a sequence by position, a mapping by name. -/
def Arguments.outline : Arguments → Except WriteError Outline
  | positional values => return .sequence none (← values.mapM Outline.ofValue)
  | named values => values.outline Outline.ofValue

/-- An executable: a string, or a mapping for an invocation. -/
def Executable.outline : Executable → Except WriteError Outline
  | command s => return .string s
  | invocation i => return .fields [("recipe", .string i.recipe), ("args", ← i.arguments.outline)]

/-- A procedure. -/
def Executable.listOutline (l : List Executable) : Except WriteError Outline := do
  return .sequence none (← l.mapM outline)

/-- A recipe. -/
def RecipeDeclaration.outline (r : RecipeDeclaration) : Except WriteError Outline := do
  return .fields [("description", .optional r.description), ("params", .strings r.params),
    ("defaults", ← r.defaults.outline Outline.ofValue), ("check", .optional r.check),
    ("setup", ← Executable.listOutline r.setup)]

/-- A target. -/
def TargetDeclaration.outline (t : TargetDeclaration) : Except WriteError Outline := do
  let setup ← Executable.listOutline t.setup
  let recipe ← Executable.listOutline t.recipe
  let check ← match t.check with
    | none => pure (Outline.plain "null")
    | some e => e.outline
  return .fields [("depends_on", .strings t.dependsOn), ("setup", setup), ("recipe", recipe),
    ("check", check)]

namespace Config

/-- A configuration as an outline. -/
def outline (c : Config) : Except WriteError Outline := do
  return .fields [("version", .string c.version), ("name", .string c.name),
    ("description", .optional c.description), ("shell", .string c.shell),
    ("recipes", ← c.recipes.outline RecipeDeclaration.outline),
    ("targets", ← c.targets.outline TargetDeclaration.outline)]

/-- A configuration as the text of a document. -/
def write (c : Config) : Except WriteError String := c.outline.map Outline.render

end Config

end Provision
