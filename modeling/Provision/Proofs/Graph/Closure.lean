import Mathlib.Order.Bounds.Basic
import Provision.Proofs.Graph.Emission
import Provision.Proofs.Graph.Order

/-!
# What a traversal emits is the least closed set

On an arbitrary graph, with cycles anywhere, a traversal emits its start nodes, and then what has
all of its covered dependencies emitted. So the names emitted are a set that is closed under this
rule. It is the least such set: whoever follows the order of emission finds each name in every
closed set. A root that lies on a cycle is emitted first, and what leads back to it does not hold
up the rest; a cycle that the traversal covers without starting on it is never emitted.

> `order_closed`, `order_subset_of_closed`: the names emitted are closed, and in every closed set;
> `order_isLeast`: the traversal of an arbitrary graph from an arbitrary root.
-/

namespace Provision.Traversal

variable {g : Graph} {root : Option String}

/-! ## Where a traversal starts, and what it covers -/

/-- Whether a traversal starts at a node: it is the root, or without one it has no dependencies. -/
def isStart (g : Graph) (root : Option String) (n : String) : Bool :=
  root.elim (g.dependenciesOf n).isEmpty (n == ·)

/-- Whether a start node leads to a name, along edges from dependencies to dependents. -/
def Covers (g : Graph) (root : Option String) (n : String) : Prop :=
  ∃ s ∈ g.nodes, isStart g root s ∧ Relation.ReflTransGen (Leads g) s n

/-- The start nodes are in order of declaration. -/
theorem starts_eq (g : Graph) (root : Option String) :
    starts g root = g.nodes.filter (isStart g root) := by
  cases root with
  | none =>
    rw [starts, Graph.roots, Graph.nodes, Registry.keys, List.filter_map]
    refine congrArg (List.map Prod.fst) (List.filter_congr fun e he => ?_)
    have hget := (g.dependencies.get?_eq_some_iff e.1 e.2).mpr he
    rw [Function.comp_apply, isStart, Option.elim_none, Graph.dependenciesOf, hget,
      Option.getD_some]
  | some r =>
    have hfilter : g.nodes.filter (isStart g (some r)) = g.nodes.filter (· == r) := rfl
    have hnodup : g.nodes.Nodup := g.dependencies.nodup
    have hnodes : g.contains r = true ↔ r ∈ g.nodes := g.dependencies.contains_iff r
    rw [starts, hfilter, List.filter_beq]
    by_cases hr : r ∈ g.nodes
    · rw [if_pos (hnodes.mpr hr), List.count_eq_one_of_mem hnodup hr]
      rfl
    · rw [if_neg (mt hnodes.mp hr), List.count_eq_zero.mpr hr]
      rfl

/-- What is within reach of a traversal is what its starts cover. -/
theorem mem_scope_iff_covers (hg : g.Consistent) (n : String) :
    n ∈ scope g root ↔ Covers g root n := by
  simp only [mem_scope_iff hg, starts_eq, List.mem_filter, Covers, and_assoc]

/-! ## Closed sets -/

/-- Whether a set has the start nodes, and every covered name all of whose covered dependencies it
has. -/
structure Closed (g : Graph) (root : Option String) (S : Set String) : Prop where
  starting : ∀ n ∈ g.nodes, isStart g root n → n ∈ S
  following : ∀ n, Covers g root n →
    (∀ d ∈ g.dependenciesOf n, Covers g root d → d ∈ S) → n ∈ S

/-- The start nodes are emitted first, in the order in which they are found. -/
theorem starts_prefix_order (hg : g.Consistent) (hl : g.Listed) (root : Option String) :
    starts g root <+: order g root :=
  ⟨_, (order_eq hg hl root).symm⟩

/-- **What is emitted is closed.** A name that still waits at the end waits for another one. -/
theorem order_closed (hg : g.Consistent) (hl : g.Listed) (root : Option String) :
    Closed g root {n | n ∈ order g root} := by
  obtain ⟨t, -, hend, hinv⟩ := order_emits hg root
  constructor
  · intro n hn hstart
    refine (starts_prefix_order hg hl root).subset ?_
    rw [starts_eq]
    exact List.mem_filter.mpr ⟨hn, hstart⟩
  · intro n hn hdeps
    by_contra hout
    have hmem := hinv.covers.symm.subset ((mem_scope_iff_covers hg n).mpr hn)
    rw [hend, List.append_nil, List.mem_append] at hmem
    obtain ⟨e, he, rfl⟩ := List.mem_map.mp (hmem.resolve_left hout)
    obtain ⟨hcount, hpos⟩ := hinv.counts e he
    rw [List.count_nil, Nat.add_zero] at hcount
    have hzero : waiting g root (order g root) e.1 = 0 := by
      refine waiting_eq_zero_iff.mpr fun d hd hscope => ?_
      exact hdeps d hd ((mem_scope_iff_covers hg d).mp hscope)
    omega

/-- **What is emitted is in every closed set.** The induction is along the order of emission. -/
theorem order_subset_of_closed (hg : g.Consistent) {S : Set String} (hS : Closed g root S) :
    ∀ n ∈ order g root, n ∈ S := by
  obtain ⟨t, -, -, hinv⟩ := order_emits hg root
  refine forall_mem_of_forall_before fun before n after hsplit hearlier => ?_
  rcases hinv.ordered before n after hsplit with hstart | hzero
  · rw [starts_eq, List.mem_filter] at hstart
    exact hS.starting n hstart.1 hstart.2
  · have hscope : n ∈ scope g root := hinv.mem_scope (hsplit ▸ by simp)
    refine hS.following n ((mem_scope_iff_covers hg n).mp hscope) fun d hd hcovered => ?_
    have hbefore := waiting_eq_zero_iff.mp hzero d hd ((mem_scope_iff_covers hg d).mpr hcovered)
    exact hearlier d hbefore

/-- A name at which no traversal starts comes after all of its covered dependencies. -/
theorem precedes_of_covers (hg : g.Consistent) {n d : String} (hn : n ∈ order g root)
    (hstart : isStart g root n = false) (hd : d ∈ g.dependenciesOf n) (hcovered : Covers g root d) :
    Precedes (order g root) d n := by
  obtain ⟨t, -, -, hinv⟩ := order_emits hg root
  obtain ⟨before, after, hsplit⟩ := List.append_of_mem hn
  refine ⟨before, after, hsplit, ?_⟩
  have hnot : n ∉ starts g root := by
    rw [starts_eq, List.mem_filter, hstart]
    simp
  have hzero := (hinv.ordered before n after hsplit).resolve_left hnot
  exact waiting_eq_zero_iff.mp hzero d hd ((mem_scope_iff_covers hg d).mpr hcovered)

/-- Without cycles all that is covered is emitted. -/
theorem mem_order_of_acyclic (hg : g.Consistent) (hacyclic : ¬ Cyclic g.Needs) {n : String}
    (hn : Covers g root n) : n ∈ order g root := by
  obtain ⟨t, -, hend, hinv⟩ := order_emits hg root
  have hpending : t.pending.map Prod.fst = [] := by
    by_contra hne
    exact hacyclic (cyclic_of_forall_exists hne fun n hn => hinv.exists_pending hend hn)
  have hcovers := hinv.covers
  rw [hend, hpending, List.append_nil, List.append_nil] at hcovers
  exact hcovers.symm.subset ((mem_scope_iff_covers hg n).mpr hn)

/-- **The traversal of an arbitrary graph.** Whatever the index refers to, and wherever the
traversal starts, it ends and emits no name twice, and a root that is no node yields nothing. The
names emitted are the least set that has the start nodes and every covered name all of whose
covered dependencies it has. The start nodes come first, in order of declaration, and every other
name comes after all of its covered dependencies. Where the graph has no cycle, the names emitted
are all that are covered. -/
theorem order_isLeast (index : DependencyIndex) (root : Option String) :
    let g := Graph.build index
    (∃ t, Emits (start g root) (order g root) t ∧ t.next = none) ∧
    (order g root).Nodup ∧
    (∀ r ∉ index.keys, order g (some r) = []) ∧
    IsLeast {S | Closed g root S} {n | n ∈ order g root} ∧
    index.keys.filter (isStart g root) <+: order g root ∧
    (∀ n ∈ order g root, isStart g root n = false → ∀ d ∈ g.dependenciesOf n, Covers g root d →
      Precedes (order g root) d n) ∧
    (¬ Cyclic g.Needs → ∀ n, n ∈ order g root ↔ Covers g root n) := by
  intro g
  have hg : g.Consistent := Graph.build_consistent index
  have hl : g.Listed := Graph.build_listed index
  obtain ⟨t, hrun, hend, hinv⟩ := order_emits hg root
  have hnodes : g.nodes = index.keys := Graph.nodes_build index
  refine ⟨⟨t, hrun, (next_eq_none_iff t).mpr hend⟩, hinv.out_nodup hg, fun r hr => ?_,
    ⟨order_closed hg hl root, fun S hS n hn => order_subset_of_closed hg hS n hn⟩, ?_,
    fun n hn hstart d hd hcovered => precedes_of_covers hg hn hstart hd hcovered,
    fun hacyclic n => ⟨fun hn => ?_, mem_order_of_acyclic hg hacyclic⟩⟩
  · -- no set is smaller than the empty one, which is closed if nothing starts
    have hnone : ∀ n ∈ g.nodes, isStart g (some r) n = false := by
      intro n hn
      exact beq_false_of_ne fun hnr => hr (hnodes ▸ hnr ▸ hn)
    have hclosed : Closed g (some r) ∅ := by
      refine ⟨fun n hn hstart => ?_, fun n hn => ?_⟩
      · exact absurd hstart (by rw [hnone n hn]; decide)
      · obtain ⟨s, hs, hstart, -⟩ := hn
        exact absurd hstart (by rw [hnone s hs]; decide)
    exact List.eq_nil_iff_forall_not_mem.mpr fun n hn => order_subset_of_closed hg hclosed n hn
  · rw [← hnodes, ← starts_eq]
    exact starts_prefix_order hg hl root
  · exact (mem_scope_iff_covers hg n).mp (hinv.mem_scope hn)

/-- A traversal that starts on a cycle emits what leads around it; one that starts elsewhere does
not enter a cycle that it covers. -/
example :
    let g := Graph.build ⟨[("base", []), ("left", ["base", "right"]), ("right", ["left"]),
      ("app", ["base", "left"])], by decide⟩
    order g (some "left") = ["left", "right", "app"] ∧ order g none = ["base"] := by
  decide

end Provision.Traversal
