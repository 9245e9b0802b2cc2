import Provision.Config
import Provision.Json

/-!
# Configurations as JSON

Every field is written, absent ones as null. A mapping becomes an object, which has no
member for a key that is null, a collection, tagged or not finite.

Mirrors the derived serialisers of the declarations, for JSON.
-/

namespace Provision

namespace Yaml.Value

/-- The name of the member for a key. -/
def memberName? : Value → Option String
  | .bool b => some (boolText b)
  | .integer n => some (toString n)
  | .float x => if x.isFinite then some (Json.numberLayout.text x) else none
  | .string s => some s
  | _ => none

mutual

/-- A value as JSON. -/
def toJson? : Value → Option Json
  | .null => some .null
  | .bool b => some (.bool b)
  | .integer n => some (.number (toString n))
  | .float x => some (.float x)
  | .string s => some (.string s)
  | .sequence items => (itemsToJson? items).map .array
  | .mapping entries => (entriesToJson? entries).map .object
  | .tagged name v => (toJson? v).map fun j => .object [("!" ++ name, j)]

/-- The items of a sequence as JSON. -/
def itemsToJson? : List Value → Option (List Json)
  | [] => some []
  | v :: rest => do return (← toJson? v) :: (← itemsToJson? rest)

/-- The entries of a mapping as members. -/
def entriesToJson? : List (Value × Value) → Option (List (String × Json))
  | [] => some []
  | (k, v) :: rest => do return (← memberName? k, ← toJson? v) :: (← entriesToJson? rest)

end

end Yaml.Value

/-- The entries of a registry as an object. -/
def Registry.toJson? {α : Type} (r : Registry α) (f : α → Option Json) : Option Json :=
  (r.entries.mapM fun e => (f e.2).map (e.1, ·)).map .object

/-- Arguments as JSON: an array by position, an object by name. -/
def Arguments.toJson? : Arguments → Option Json
  | positional values => (values.mapM Yaml.Value.toJson?).map .array
  | named values => values.toJson? Yaml.Value.toJson?

/-- An executable as JSON: a string, or an object for an invocation. -/
def Executable.toJson? : Executable → Option Json
  | command s => some (.string s)
  | invocation i => i.arguments.toJson?.map fun args =>
      .object [("recipe", .string i.recipe), ("args", args)]

/-- Executables as an array. -/
def Executable.listToJson? (l : List Executable) : Option Json :=
  (l.mapM toJson?).map .array

/-- A recipe as JSON. -/
def RecipeDeclaration.toJson? (r : RecipeDeclaration) : Option Json := do
  return .object [("description", .optional r.description), ("params", .strings r.params),
    ("defaults", ← r.defaults.toJson? Yaml.Value.toJson?), ("check", .optional r.check),
    ("setup", ← Executable.listToJson? r.setup)]

/-- A target as JSON. -/
def TargetDeclaration.toJson? (t : TargetDeclaration) : Option Json := do
  let check ← match t.check with
    | none => some Json.null
    | some e => e.toJson?
  return .object [("depends_on", .strings t.dependsOn),
    ("setup", ← Executable.listToJson? t.setup), ("recipe", ← Executable.listToJson? t.recipe),
    ("check", check)]

/-- A configuration as JSON. -/
def Config.toJson? (c : Config) : Option Json := do
  return .object [("version", .string c.version), ("name", .string c.name),
    ("description", .optional c.description), ("shell", .string c.shell),
    ("recipes", ← c.recipes.toJson? RecipeDeclaration.toJson?),
    ("targets", ← c.targets.toJson? TargetDeclaration.toJson?)]

end Provision
