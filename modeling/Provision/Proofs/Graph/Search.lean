import Mathlib.Logic.ExistsUnique
import Provision.Proofs.Graph.Cycle

/-!
# The cycle search comes to an end

`findCycle` bounds the levels of its search by the number of nodes. The search itself knows no
bound: it is the relation `Explores`, a derivation of which is a search that has come to its end,
visits inside of visits. Each visit adds a node to the stack, which holds different nodes, so that
the bound is never met, and the bounded search is the search itself.

> `visitAll_explores`: the search comes to an end, with the result of the bounded one;
> `findCycle_exact`: the search finds a cycle exactly if there is one.
-/

namespace Provision

variable {nodes : List String} {edges : String → List String}

namespace Search

/-! ## The search without a bound -/

/-- The search from the top of a stack. The nodes of a list are looked at one after another, as long
as no cycle has been found; a node that is neither on the stack nor done is visited. -/
inductive Explores (edges : String → List String) :
    List String → List String → Search → Search → Prop
  /-- After a cycle has been found nothing is looked at. -/
  | found {stack nexts path : List String} :
      Explores edges stack nexts (.found path) (.found path)
  | nil {stack done : List String} : Explores edges stack [] (.clear done) (.clear done)
  /-- An edge back to the stack closes a cycle. -/
  | back {stack nexts done : List String} {next : String} (on : next ∈ stack) :
      Explores edges stack (next :: nexts) (.clear done) (.found (closing stack next))
  /-- A node that is done is passed over. -/
  | pass {stack nexts done : List String} {next : String} {s : Search} (off : next ∉ stack)
      (old : next ∈ done) (rest : Explores edges stack nexts (.clear done) s) :
      Explores edges stack (next :: nexts) (.clear done) s
  /-- Any other node is visited: its own edges are followed with it on top of the stack. -/
  | down {stack nexts done : List String} {next : String} {below s : Search} (off : next ∉ stack)
      (fresh : next ∉ done)
      (visit : Explores edges (next :: stack) (edges next) (.clear done) below)
      (rest : Explores edges stack nexts (leave next below) s) :
      Explores edges stack (next :: nexts) (.clear done) s

/-- A search has one result at most. -/
theorem Explores.unique {stack nexts : List String} {s t : Search}
    (h : Explores edges stack nexts s t) :
    ∀ {t' : Search}, Explores edges stack nexts s t' → t = t' := by
  induction h with
  | found => intro t' h'; cases h'; rfl
  | nil => intro t' h'; cases h'; rfl
  | back hon =>
    intro t' h'
    cases h' with
    | back => rfl
    | pass hoff => exact absurd hon hoff
    | down hoff => exact absurd hon hoff
  | pass hoff hold _ ih =>
    intro t' h'
    cases h' with
    | back hon => exact absurd hon hoff
    | pass _ _ hrest => exact ih hrest
    | down _ hfresh => exact absurd hold hfresh
  | down hoff hfresh _ _ ihvisit ihrest =>
    intro t' h'
    cases h' with
    | back hon => exact absurd hon hoff
    | pass _ hold => exact absurd hold hfresh
    | down _ _ hvisit hrest =>
      -- the rest begins where the visit has ended, which is the same for both
      obtain rfl := ihvisit hvisit
      exact ihrest hrest

/-! ## The bounded search -/

/-- Following the edges one after another is a search, if each visit is one. -/
theorem foldl_follow_explores {stack : List String} {visit : String → List String → Search} :
    ∀ (nexts : List String), (∀ next ∈ nexts, next ∉ stack → ∀ done, ∃ below,
        Explores edges (next :: stack) (edges next) (.clear done) below ∧
          visit next done = leave next below) →
      ∀ s, Explores edges stack nexts s (nexts.foldl (follow visit stack) s) := by
  intro nexts
  induction nexts with
  | nil =>
    intro _ s
    cases s with
    | found path => exact .found
    | clear done => exact .nil
  | cons next nexts ih =>
    intro hvisit s
    have hrest := ih fun n hn => hvisit n (List.mem_cons_of_mem _ hn)
    cases s with
    | found path =>
      rw [foldl_follow_found]
      exact .found
    | clear done =>
      -- the tests of `follow`, in its order: on the stack, done, or to be visited
      rw [List.foldl_cons]
      by_cases hon : next ∈ stack
      · rw [follow, if_pos (List.contains_iff_mem.mpr hon), foldl_follow_found]
        exact .back hon
      · rw [follow, if_neg (mt List.contains_iff_mem.mp hon)]
        by_cases hold : next ∈ done
        · rw [if_pos (List.contains_iff_mem.mpr hold)]
          exact .pass hon hold (hrest _)
        · rw [if_neg (mt List.contains_iff_mem.mp hold)]
          obtain ⟨below, hbelow, hleave⟩ := hvisit next (List.mem_cons_self ..) hon done
          rw [hleave]
          exact .down hon hold hbelow (hrest _)

/-- **A visit is a search.** The induction is on the levels that are left: as the stack holds
different nodes, there are as many of them as nodes that are not on the stack. -/
theorem visit_explores (hclosed : ∀ x ∈ nodes, ∀ y ∈ edges x, y ∈ nodes) :
    ∀ (fuel : Nat) {stack : List String} {node : String}, (node :: stack).Nodup →
      (∀ x ∈ node :: stack, x ∈ nodes) → nodes.length ≤ fuel + stack.length →
      ∀ done, ∃ below, Explores edges (node :: stack) (edges node) (.clear done) below ∧
        visit edges fuel stack node done = leave node below := by
  intro fuel
  induction fuel with
  | zero =>
    -- the stack would hold more different nodes than there are
    intro stack node hnodup hmem hfuel
    have hlen := hnodup.length_le_of_subset hmem
    simp only [List.length_cons] at hlen
    omega
  | succ fuel ih =>
    intro stack node hnodup hmem hfuel done
    refine ⟨_, foldl_follow_explores (edges node) (fun next hnext hoff => ?_) _, rfl⟩
    refine ih (List.nodup_cons.mpr ⟨hoff, hnodup⟩) ?_ (by simp only [List.length_cons]; omega)
    intro x hx
    rcases List.mem_cons.mp hx with rfl | hx
    · exact hclosed node (hmem node (List.mem_cons_self ..)) x hnext
    · exact hmem x hx

/-- **The search comes to an end**, with the result of the search that is bounded by the number of
nodes, or by more. -/
theorem visitAll_explores (hclosed : ∀ x ∈ nodes, ∀ y ∈ edges x, y ∈ nodes) {fuel : Nat}
    (hfuel : nodes.length ≤ fuel) :
    Explores edges [] nodes (.clear []) (visitAll edges fuel nodes) := by
  refine foldl_follow_explores nodes (fun next hnext _ => ?_) _
  refine visit_explores hclosed fuel (List.nodup_singleton next) ?_ hfuel
  intro x hx
  rwa [List.mem_singleton.mp hx]

end Search

/-! ## What the search finds -/

/-- Edges that never leave the nodes lead from node to node. -/
theorem follows_transGen (hclosed : ∀ x ∈ nodes, ∀ y ∈ edges x, y ∈ nodes) {x y : String}
    (hx : x ∈ nodes) (h : Relation.TransGen (fun x y => y ∈ edges x) x y) :
    Relation.TransGen (Follows nodes edges) x y ∧ y ∈ nodes := by
  induction h with
  | single hstep => exact ⟨.single ⟨hx, hstep⟩, hclosed x hx _ hstep⟩
  | tail _ hstep ih => exact ⟨ih.1.tail ⟨ih.2, hstep⟩, hclosed _ ih.2 _ hstep⟩

/-- Where edges stay among the nodes, a cycle is a node that leads back to itself. -/
theorem cyclic_follows_iff (hclosed : ∀ x ∈ nodes, ∀ y ∈ edges x, y ∈ nodes) :
    Cyclic (Follows nodes edges) ↔
      ∃ x ∈ nodes, Relation.TransGen (fun x y => y ∈ edges x) x x := by
  constructor
  · rintro ⟨x, hx⟩
    obtain ⟨y, hstep, -⟩ := Relation.TransGen.head'_iff.mp hx
    exact ⟨x, hstep.1, Relation.TransGen.mono (fun _ _ h => h.2) _ _ hx⟩
  · rintro ⟨x, hmem, hx⟩
    exact ⟨x, (follows_transGen hclosed hmem hx).1⟩

/-- All entries of a cycle that a search may follow are nodes. -/
theorem IsCycle.mem_nodes {path : List String} (h : IsCycle (Follows nodes edges) path) :
    ∀ x ∈ path, x ∈ nodes := by
  obtain ⟨node, inner, rfl, -, hchain⟩ := h
  -- each entry but the last one has an edge, and the last one is the first one
  have hfirst : ∀ x ∈ node :: inner, x ∈ nodes := by
    intro x hx
    obtain ⟨before, after, hsplit⟩ := List.append_of_mem hx
    rw [hsplit, List.append_assoc, List.isChain_append] at hchain
    cases after with
    | nil => exact (List.isChain_cons_cons.mp hchain.2.1).1.1
    | cons y after => exact (List.isChain_cons_cons.mp hchain.2.1).1.1
  intro x hx
  rcases List.mem_append.mp hx with hx | hx
  · exact hfirst x hx
  · rw [List.mem_singleton.mp hx]
    exact hfirst node (List.mem_cons_self ..)

/-- **The search is sound and complete.** On nodes that their edges never leave, whatever else the
edges do, the search comes to an end with one result, which is what `findCycle` returns. A path is
found exactly if some node leads back to itself. The path leads from a node back to it along the
edges, meets no other node twice, and has nodes only. -/
theorem findCycle_exact (nodes : List String) (edges : String → List String)
    (hclosed : ∀ x ∈ nodes, ∀ y ∈ edges x, y ∈ nodes) :
    (∃! s, Search.Explores edges [] nodes (.clear []) s) ∧
    (∀ path, findCycle nodes edges = some path ↔
      Search.Explores edges [] nodes (.clear []) (.found path)) ∧
    ((findCycle nodes edges).isSome ↔
      ∃ x ∈ nodes, Relation.TransGen (fun x y => y ∈ edges x) x x) ∧
    ∀ path, findCycle nodes edges = some path →
      IsCycle (fun x y => y ∈ edges x) path ∧ ∀ x ∈ path, x ∈ nodes := by
  have hends := Search.visitAll_explores hclosed (Nat.le_refl nodes.length)
  refine ⟨⟨_, hends, fun s hs => hs.unique hends⟩, fun path => ?_, ?_, fun path hpath => ?_⟩
  · constructor
    · intro hpath
      rw [findCycle] at hpath
      split at hpath
      next found hfound =>
        rw [← Option.some.inj hpath, ← hfound]
        exact hends
      next => simp at hpath
    · intro hfound
      rw [findCycle, hends.unique hfound]
  · rw [← cyclic_follows_iff hclosed, ← not_iff_not, ← findCycle_eq_none_iff hclosed]
    exact Option.not_isSome_iff_eq_none
  · have hcycle := findCycle_isCycle hclosed hpath
    refine ⟨?_, hcycle.mem_nodes⟩
    obtain ⟨node, inner, hsplit, hnodup, hchain⟩ := hcycle
    exact ⟨node, inner, hsplit, hnodup, hchain.imp fun _ _ h => h.2⟩

/-- A graph with a cycle that the search enters from the side, over a dependency that is declared
twice, and a node below the cycle that depends on itself. -/
def Graph.entered : Graph :=
  build ⟨[("start", ["base", "left", "left"]), ("base", []), ("left", ["right"]),
    ("right", ["base", "left", "self"]), ("self", ["self"])], by decide⟩

/-- A graph that is entered outside of its cycle, which is found and reported without the way to
it. -/
theorem findCycle_exact_entered :
    (∀ x ∈ Graph.entered.nodes, ∀ y ∈ Graph.entered.dependenciesOf x, y ∈ Graph.entered.nodes) ∧
    findCycle Graph.entered.nodes Graph.entered.dependenciesOf = some ["left", "right", "left"] ∧
    Search.Explores Graph.entered.dependenciesOf [] Graph.entered.nodes (.clear [])
      (.found ["left", "right", "left"]) ∧
    IsCycle (fun x y => y ∈ Graph.entered.dependenciesOf x) ["left", "right", "left"] := by
  have hclosed : ∀ x ∈ Graph.entered.nodes, ∀ y ∈ Graph.entered.dependenciesOf x,
      y ∈ Graph.entered.nodes := by
    decide
  have hfound : findCycle Graph.entered.nodes Graph.entered.dependenciesOf =
      some ["left", "right", "left"] := by
    decide
  obtain ⟨-, hends, -, hpath⟩ :=
    findCycle_exact Graph.entered.nodes Graph.entered.dependenciesOf hclosed
  exact ⟨hclosed, hfound, (hends _).mp hfound, (hpath _ hfound).1⟩

end Provision
