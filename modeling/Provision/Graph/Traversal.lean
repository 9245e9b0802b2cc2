import Provision.Graph

/-!
# Traversals in order of installation

A traversal starts at one node, or at all nodes without dependencies, and covers what can be
reached from there by going from dependencies to dependents. A node is emitted after all of
its dependencies that are covered, as soon as the last one of them has been; nodes that
become free at once keep their order.

> `order`: all names that a traversal emits.

Mirrors `bfs_iterator` and `next`.
- The hash map of counters is a list, which is only searched by name; the scope and the start
  nodes are lists where the program has sets.
- The program subtracts from a counter and compares with zero; `arrive` compares with one
  before. `Proofs.Graph.Counting` shows that a counter is never zero when a dependency arrives.
- The loop over the frontier has a bound, the number of nodes, since every node enters the
  frontier once.
-/

namespace Provision

/-- The state of a traversal. -/
structure Traversal where
  graph : Graph
  /-- The nodes that may be emitted, next one first. -/
  queue : List String
  /-- The covered nodes that are not free yet, with the number of dependencies they wait for. -/
  pending : List (String × Nat)

namespace Traversal

/-- The nodes that can be reached from a frontier, added to a scope. Each node enters the
frontier once, so that `fuel` may be the number of nodes. -/
def reach (g : Graph) : Nat → List String → List String → List String
  | 0, _, scope => scope
  | _ + 1, [], scope => scope
  | fuel + 1, n :: frontier, scope =>
    let new := (g.dependentsOf n).eraseDups.filter fun d => !scope.contains d
    reach g fuel (frontier ++ new) (scope ++ new)

/-- The start nodes: the root, if it is a node, or all nodes without dependencies. -/
def starts (g : Graph) : Option String → List String
  | some root => if g.contains root then [root] else []
  | none => g.roots

/-- The nodes that a traversal covers. -/
def scope (g : Graph) (root : Option String) : List String :=
  reach g g.nodeCount (starts g root) (starts g root)

/-- A fresh traversal. -/
def start (g : Graph) (root : Option String) : Traversal :=
  let first := starts g root
  let covered := scope g root
  { graph := g
    queue := first
    pending := (g.nodes.filter fun n => covered.contains n && !first.contains n).map fun n =>
      (n, ((g.dependenciesOf n).filter covered.contains).length) }

/-- Tells a waiting node that one dependency has been emitted. -/
def arrive (t : Traversal) (name : String) : Traversal :=
  match t.pending.find? (·.1 == name) with
  | none => t
  | some (_, n) =>
    if n ≤ 1 then
      { t with queue := t.queue ++ [name], pending := t.pending.filter (·.1 != name) }
    else
      { t with pending := t.pending.map fun e => if e.1 == name then (name, n - 1) else e }

/-- Emits the next node. -/
def next (t : Traversal) : Option (String × Traversal) :=
  match t.queue with
  | [] => none
  | current :: rest =>
    some (current, (t.graph.dependentsOf current).foldl arrive { t with queue := rest })

/-- Emits at most so many nodes. -/
def take : Nat → Traversal → List String
  | 0, _ => []
  | n + 1, t =>
    match t.next with
    | none => []
    | some (name, t') => name :: take n t'

/-- The names that a traversal emits; none is emitted twice. -/
def order (g : Graph) (root : Option String) : List String :=
  (start g root).take g.nodeCount

end Traversal

end Provision
