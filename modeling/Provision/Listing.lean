import Provision.Blueprint
import Provision.Text.Column

/-!
# Listings

What a blueprint holds, as texts: the targets in the order of installation, a table of their
dependencies, and how each target is installed.

Mirrors `deps_string`, `format_deps`, `format_ls` and the output of `cmd_list`.
-/

namespace Provision.Blueprint

/-- The dependencies of a target in one text. -/
def dependencyText (b : Blueprint) (target : String) : String :=
  match b.dependenciesOf target with
  | [] => "-"
  | ds => ", ".intercalate ds

/-- The targets, one a line. -/
def listText (b : Blueprint) : String := Text.lines b.order

/-- A table of targets and dependencies. -/
def dependencyTable (b : Blueprint) : String :=
  let width := Text.widest "target".length b.order
  let row (first second : String) : String := Text.padded width first ++ "  " ++ second
  Text.lines (row "target" "dependencies" ::
    b.order.map fun t => row t (b.dependencyText t))

/-- How a target is installed: a detail in each line. -/
def detailLines (b : Blueprint) (target : String) : List String :=
  let p := (b.procedures.get? target).getD {}
  let detail (kind text : String) : String := s!"  ↳ {kind}: {text}"
  target :: detail "Dependencies" (b.dependencyText target) ::
    (p.setup.map fun e => detail "Setup" e.text) ++
    (p.recipe.map fun e => detail "Recipe" e.text) ++
    (p.check.toList.map fun e => detail "Check" e.text)

/-- How the first target without dependencies, and all that follows from it, is installed. -/
def detailText (b : Blueprint) : String :=
  match b.dependencies.independent with
  | [] => ""
  | root :: _ => Text.lines ((Traversal.order b.graph (some root)).flatMap b.detailLines)

end Provision.Blueprint
