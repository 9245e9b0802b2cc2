import Provision.Registry

/-!
# Dependency graphs

The nodes are the names that are declared; a dependency on any other name is no edge. An
edge leads from a node to a dependency, and back from the dependency to the dependent.

> `keys_dependencies`, `keys_dependents`: both tables have the declared names, in order.

Mirrors `build` and `zero_dependency_targets`.
- The program fills both tables in one pass over the dependencies; here the dependents of a
  node are gathered from the whole index. `linked_eq_build` says that the one-pass tables are
  the same.
- The counts for the log are `nodeCount` and `edgeCount`.
-/

namespace Provision

/-- What each name depends on, as declared. -/
abbrev DependencyIndex := Registry (List String)

/-- A graph over names, with its edges in both directions. -/
structure Graph where
  /-- For each node the nodes it depends on. -/
  dependencies : Registry (List String)
  /-- For each node the nodes that depend on it. -/
  dependents : Registry (List String)

namespace Graph

/-- The declared dependencies of a list that are nodes. -/
def edges (index : DependencyIndex) (deps : List String) : List String :=
  deps.filter index.contains

/-- The names that depend on a name, once for each time they say so. -/
def dependentsIn (index : DependencyIndex) (name : String) : List String :=
  index.entries.flatMap fun e => (e.2.filter (· == name)).map fun _ => e.1

/-- The graph of an index. -/
def build (index : DependencyIndex) : Graph :=
  { dependencies := index.map fun _ deps => edges index deps
    dependents := index.map fun name _ => dependentsIn index name }

theorem keys_dependencies (index : DependencyIndex) :
    (build index).dependencies.keys = index.keys := by
  simp [build]

theorem keys_dependents (index : DependencyIndex) :
    (build index).dependents.keys = index.keys := by
  simp [build]

/-- The nodes in order of declaration. -/
def nodes (g : Graph) : List String := g.dependencies.keys

/-- How many nodes there are. -/
def nodeCount (g : Graph) : Nat := g.dependencies.size

/-- How many edges there are, repeated ones counted. -/
def edgeCount (g : Graph) : Nat := g.dependencies.values.flatten.length

/-- Whether a name is a node. -/
def contains (g : Graph) (name : String) : Bool := g.dependencies.contains name

/-- The nodes that a node depends on; an unknown name has none. -/
def dependenciesOf (g : Graph) (name : String) : List String :=
  (g.dependencies.get? name).getD []

/-- The nodes that depend on a node; an unknown name has none. -/
def dependentsOf (g : Graph) (name : String) : List String :=
  (g.dependents.get? name).getD []

/-- The nodes without dependencies, in order of declaration. -/
def roots (g : Graph) : List String :=
  (g.dependencies.entries.filter fun e => e.2.isEmpty).map Prod.fst

end Graph

/-- The names that declare no dependency at all, in order. -/
def DependencyIndex.independent (index : DependencyIndex) : List String :=
  (index.entries.filter fun e => e.2.isEmpty).map Prod.fst

end Provision
