import Provision.Graph

/-!
# Searching for a cycle

Depth-first search over any adjacency. The nodes on the way to the present one form the
stack; a node whose edges have all been followed is done and lies on no cycle. An edge back
to the stack closes a cycle.

> `findCycle`: a path of edges that ends where it begins, if there is one.

Mirrors `find_cycle_in` with its inner `visit`.
- A mark for a node on the stack or done becomes a list of each; `Proofs.Graph.Marks` has the
  machine with marks, and `Proofs.Graph.Mirror` proves that it ends with the same result.
- The recursion of `visit` has a bound, the number of nodes; `Proofs.Graph.Search` shows that
  it is never met.
-/

namespace Provision

/-- The result of a search. -/
inductive Search
  /-- A path whose first and last nodes are the same. -/
  | found (path : List String)
  /-- No cycle; these nodes are done. -/
  | clear (done : List String)
deriving DecidableEq, Repr

namespace Search

/-- The cycle that an edge from the top of the stack to a node on it closes. The stack has its
top first. -/
def closing (stack : List String) (node : String) : List String :=
  node :: (stack.takeWhile (· != node)).reverse ++ [node]

/-- Follows an edge from the top of the stack, as long as no cycle has been found. The visit of
a node takes the nodes that are done. -/
def follow (visit : String → List String → Search) (stack : List String) (s : Search)
    (next : String) : Search :=
  match s with
  | .found path => .found path
  | .clear done =>
    if stack.contains next then .found (closing stack next)
    else if done.contains next then .clear done
    else visit next done

/-- Says that a node is done, unless a cycle has been found below it. -/
def leave (node : String) : Search → Search
  | .found path => .found path
  | .clear done => .clear (node :: done)

/-- Visits a node from the top of the stack. Each level of the search adds a node to the
stack, so that `fuel` may be the number of nodes. -/
def visit (edges : String → List String) : Nat → List String → String → List String → Search
  | 0, _, _, done => .clear done
  | fuel + 1, stack, node, done =>
    leave node
      ((edges node).foldl (follow (visit edges fuel (node :: stack)) (node :: stack))
        (.clear done))

/-- Visits the nodes one after another, as far as they are not done. -/
def visitAll (edges : String → List String) (fuel : Nat) (nodes : List String) : Search :=
  nodes.foldl (follow (visit edges fuel []) []) (.clear [])

end Search

/-- A cycle among the nodes, written from a node back to itself. -/
def findCycle (nodes : List String) (edges : String → List String) : Option (List String) :=
  match Search.visitAll edges nodes.length nodes with
  | .found path => some path
  | .clear _ => none

/-- A cycle of a graph: `a, b, a` says that `a` depends on `b` and `b` on `a`. -/
def Graph.findCycle (g : Graph) : Option (List String) :=
  Provision.findCycle g.nodes g.dependenciesOf

end Provision
