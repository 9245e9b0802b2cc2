import Mathlib.Data.List.Nodup
import Provision.Graph

/-!
# The two tables of a graph tell the same edges

Traversals go from dependencies to dependents and count in the other direction, so they lean
on both tables at once. A graph is `Consistent` if each edge stands in both of them equally
often and leads to a node; graphs of an index are.

> `count_dependentsIn`: how often a name stands among the dependents of another;
> `build_consistent`: every graph of an index is consistent.
-/

namespace Provision.Graph

/-! ## What a graph of an index holds -/

@[simp] theorem nodes_build (index : DependencyIndex) : (build index).nodes = index.keys :=
  keys_dependencies index

/-- The edges of a node are its listed dependencies that are nodes themselves, without repetition.
-/
theorem dependenciesOf_build (index : DependencyIndex) (name : String) :
    (build index).dependenciesOf name = edges index ((index.get? name).getD []) := by
  rw [dependenciesOf, build, Registry.get?_map]
  cases index.get? name with
  | none => rfl
  | some deps => rfl

/-- An edge leads to a listed dependency that is a node. -/
theorem mem_dependenciesOf_build (index : DependencyIndex) (name d : String) :
    d ∈ (build index).dependenciesOf name ↔
      d ∈ (index.get? name).getD [] ∧ d ∈ index.keys := by
  rw [dependenciesOf_build, edges, List.mem_filter, Registry.contains_iff]

/-- The dependents of a node, gathered from the whole index. -/
theorem dependentsOf_build {index : DependencyIndex} {name : String} (h : name ∈ index.keys) :
    (build index).dependentsOf name = dependentsIn index name := by
  obtain ⟨deps, hdeps⟩ := (index.mem_keys_iff name).mp h
  rw [dependentsOf, build, Registry.get?_map, hdeps]
  rfl

/-- How often a name stands among the dependents of another: as often as it declares it. -/
theorem count_dependentsIn (index : DependencyIndex) (n d : String) :
    (dependentsIn index d).count n = ((index.get? n).getD []).count d := by
  obtain ⟨entries, hnodup⟩ := index
  rw [dependentsIn, Registry.get?]
  simp only
  induction entries with
  | nil => simp [Registry.find]
  | cons e rest ih =>
    rw [List.map_cons, List.nodup_cons] at hnodup
    rw [List.flatMap_cons, List.count_append, ih hnodup.2, List.map_const', List.count_replicate]
    by_cases he : e.1 = n
    · have hrest : Registry.find n rest = none := by
        rw [← Option.not_isSome_iff_eq_none, Registry.find_isSome]
        exact he ▸ hnodup.1
      simp [Registry.find, he, hrest, List.count_eq_length_filter]
    · simp [Registry.find, he]

/-! ## Consistent graphs -/

/-- Both tables tell the same edges, and edges lead to nodes. -/
structure Consistent (g : Graph) : Prop where
  transposed : ∀ n d, (g.dependentsOf d).count n = (g.dependenciesOf n).count d
  declared : ∀ n d, d ∈ g.dependenciesOf n → d ∈ g.nodes

/-- The two tables of a graph that is built from an index say the same. -/
theorem build_consistent (index : DependencyIndex) : (build index).Consistent := by
  refine ⟨fun n d => ?_, fun n d hd => ?_⟩
  · rw [dependenciesOf_build, dependentsOf, build, Registry.get?_map]
    cases hd : index.get? d with
    | none =>
      -- nothing declares `d`, so that no edge to it is kept
      have hout : d ∉ edges index ((index.get? n).getD []) := by
        rw [edges, List.mem_filter, Registry.contains_iff]
        exact fun hd' => (index.get?_eq_none_iff d).mp hd hd'.2
      rw [List.count_eq_zero_of_not_mem hout]
      rfl
    | some deps =>
      have hin : index.contains d = true := by rw [Registry.contains, hd]; rfl
      rw [edges, List.count_filter hin]
      exact count_dependentsIn index n d
  · rw [nodes_build]
    exact ((mem_dependenciesOf_build index n d).mp hd).2

namespace Consistent

variable {g : Graph}

/-- In a consistent graph a dependent is a dependency the other way round. -/
theorem mem_dependentsOf_iff (h : g.Consistent) (n d : String) :
    n ∈ g.dependentsOf d ↔ d ∈ g.dependenciesOf n := by
  rw [← List.count_pos_iff, h.transposed, List.count_pos_iff]

end Consistent

/-- Only nodes have dependencies. -/
theorem mem_nodes_of_mem_dependenciesOf {g : Graph} {n d : String}
    (h : d ∈ g.dependenciesOf n) : n ∈ g.nodes := by
  rw [nodes, Registry.mem_keys_iff]
  rw [dependenciesOf] at h
  cases hn : g.dependencies.get? n with
  | none => rw [hn] at h; simp at h
  | some deps => exact ⟨deps, rfl⟩

/-- The roots are the nodes without dependencies. -/
theorem mem_roots_iff (g : Graph) (n : String) :
    n ∈ g.roots ↔ n ∈ g.nodes ∧ g.dependenciesOf n = [] := by
  rw [roots, nodes, Registry.mem_keys_iff, dependenciesOf]
  constructor
  · intro h
    obtain ⟨e, he, rfl⟩ := List.mem_map.mp h
    rw [List.mem_filter, List.isEmpty_iff] at he
    have hget := (g.dependencies.get?_eq_some_iff e.1 e.2).mpr he.1
    exact ⟨⟨e.2, hget⟩, by rw [hget]; exact he.2⟩
  · rintro ⟨⟨deps, hget⟩, hnone⟩
    rw [hget, Option.getD_some] at hnone
    exact List.mem_map.mpr ⟨(n, deps), List.mem_filter.mpr
      ⟨(g.dependencies.get?_eq_some_iff n deps).mp hget, by simpa using hnone⟩, rfl⟩

theorem roots_nodup (g : Graph) : g.roots.Nodup :=
  g.dependencies.nodup.sublist (List.filter_sublist.map Prod.fst)

end Provision.Graph
