import Provision.Proofs.Graph.Order

/-!
# The search for a cycle and the traversal agree

A graph has no cycle exactly if the traversal from all roots emits as many names as there are
nodes. One direction is the completeness of the traversal. For the other one, no node of a cycle
is ever emitted: all of a cycle is covered as soon as one of its nodes is, and the first of its
nodes to be emitted would have to come after the next one. Nodes that only depend on a cycle may
well be emitted, where the cycle itself is not covered.

> `Invariant.not_on_cycle`: what a traversal emits lies on no cycle;
> `findCycle_eq_none_iff_length_order`: the search and the traversal agree on every graph.
-/

namespace Provision

/-- The search of a graph finds nothing exactly if the graph has no cycle. -/
theorem Graph.findCycle_eq_none_iff {g : Graph} (hg : g.Consistent) :
    g.findCycle = none ↔ ¬ Cyclic g.Needs := by
  have hfollows : Follows g.nodes g.dependenciesOf = g.Needs := by
    funext n d
    exact propext Graph.follows_iff
  rw [Graph.findCycle, Provision.findCycle_eq_none_iff fun n _ => hg.declared n, hfollows]

namespace Traversal

variable {g : Graph} {root : Option String}

/-- What depends on a covered name, directly or not, is covered. -/
theorem mem_scope_of_reflTransGen (hg : g.Consistent) {n d : String}
    (h : Relation.ReflTransGen g.Needs n d) (hd : d ∈ scope g root) : n ∈ scope g root := by
  induction h using Relation.ReflTransGen.head_induction_on with
  | refl => exact hd
  | head hstep _ ih => exact mem_scope_of_mem_dependenciesOf hg ih hstep

/-- **What a traversal from all roots emits lies on no cycle.** A node of a cycle depends on the
next one, which is covered too and would have been emitted before. -/
theorem Invariant.not_on_cycle (hg : g.Consistent) {out : List String} {t : Traversal}
    (h : Invariant g none out [] t) : ∀ n ∈ out, ¬ Relation.TransGen g.Needs n n := by
  refine forall_mem_of_forall_before fun before n after hsplit hearlier hcycle => ?_
  obtain ⟨d, hstep, hback⟩ := Relation.TransGen.head'_iff.mp hcycle
  rcases h.ordered before n after hsplit with hroot | hzero
  · -- a root depends on nothing
    have hnone := ((g.mem_roots_iff n).mp hroot).2
    rw [Graph.Needs, hnone] at hstep
    simp at hstep
  · have hcovered : n ∈ scope g none := h.mem_scope (hsplit ▸ by simp)
    have hd := mem_scope_of_reflTransGen hg hback hcovered
    have hbefore := waiting_eq_zero_iff.mp hzero d hstep hd
    exact hearlier d hbefore (.tail' hback hstep)

/-- With a cycle fewer names are emitted than there are nodes. -/
theorem length_order_lt_of_cyclic (hg : g.Consistent) (h : Cyclic g.Needs) :
    (order g none).length < g.nodeCount := by
  obtain ⟨t, -, -, hinv⟩ := order_emits hg none
  obtain ⟨n, hn⟩ := h
  obtain ⟨d, hstep, -⟩ := Relation.TransGen.head'_iff.mp hn
  have hnodes : ∀ m ∈ n :: order g none, m ∈ g.nodes := by
    intro m hm
    rcases List.mem_cons.mp hm with rfl | hm
    · exact Graph.mem_nodes_of_mem_dependenciesOf hstep
    · exact mem_nodes_of_mem_scope hg (hinv.mem_scope hm)
  have hfresh : n ∉ order g none := fun hout => hinv.not_on_cycle hg n hout hn
  have hlen := (List.nodup_cons.mpr ⟨hfresh, hinv.out_nodup hg⟩).length_le_of_subset hnodes
  rw [nodeCount_eq]
  exact hlen

end Traversal

/-- **The search for a cycle and the traversal agree**, whatever the index refers to. What is
emitted is all that the traversal from the roots emits until its end; no cycle is found exactly
if these are as many names as there are nodes. -/
theorem findCycle_eq_none_iff_length_order (index : DependencyIndex) :
    (∃ t, Traversal.Emits (Traversal.start (Graph.build index) none)
      (Traversal.order (Graph.build index) none) t ∧ t.next = none) ∧
    ((Graph.build index).findCycle = none ↔
      (Traversal.order (Graph.build index) none).length = (Graph.build index).nodeCount) := by
  have hg := Graph.build_consistent index
  obtain ⟨t, hrun, hend, -⟩ := Traversal.order_emits hg none
  refine ⟨⟨t, hrun, (Traversal.next_eq_none_iff t).mpr hend⟩, ?_⟩
  rw [Graph.findCycle_eq_none_iff hg]
  constructor
  · intro hacyclic
    rw [(Traversal.order_perm_nodes hg hacyclic).length_eq, Traversal.nodeCount_eq]
  · intro hlen hcyclic
    have hless := Traversal.length_order_lt_of_cyclic hg hcyclic
    omega

/-- A target that depends on a cycle that no root leads to is emitted, the cycle is not. -/
example :
    let g := Graph.build ⟨[("base", []), ("app", ["base", "left"]), ("left", ["right"]),
      ("right", ["left"])], by decide⟩
    Traversal.order g none = ["base", "app"] ∧ g.findCycle = some ["left", "right", "left"] := by
  decide

end Provision
