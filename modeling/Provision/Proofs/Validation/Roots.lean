import Provision.Listing
import Provision.Proofs.InstallOrder
import Provision.Proofs.Graph.Closure
import Provision.Proofs.Validation.Exact

/-!
# Where installation starts

A target that declares no dependency is one to start from. Where there is none, there is more to
complain of: going from dependency to dependency either comes to a name that is no target, or comes
back to a target it has come from. A root of the graph is a target without a dependency among the
targets. Where all dependencies are targets this is the same, so that the listing of targets and the
traversal of all of them start alike.

> `roots_build`: the roots of a graph are the names that declare nothing;
> `head?_order`: a traversal begins with the first of its start nodes;
> `starts_agree`: both for configurations, with what is told where there is no target to start from.
-/

namespace Provision

/-! ## Roots of graphs -/

namespace Graph

variable {index : DependencyIndex}

theorem edges_eq_self {deps : List String} (h : ∀ d ∈ deps, d ∈ index.keys) :
    edges index deps = deps :=
  List.filter_eq_self.mpr fun d hd => (index.contains_iff d).mpr (h d hd)

/-- Where all dependencies are declared, the roots are the names that declare nothing. -/
theorem roots_build (h : ∀ e ∈ index.entries, ∀ d ∈ e.2, d ∈ index.keys) :
    (build index).roots = index.independent := by
  rw [roots, build, Registry.entries_map, List.filter_map, List.map_map,
    DependencyIndex.independent]
  refine congrArg (List.map Prod.fst) (List.filter_congr fun e he => ?_)
  simp only [Function.comp_apply, edges_eq_self (h e he)]

end Graph

namespace Traversal

variable {g : Graph} {root : Option String}

/-- Without a start node nothing is emitted. -/
theorem order_eq_nil (h : starts g root = []) : order g root = [] := by
  have hend : (start g root).next = none := (next_eq_none_iff _).mpr h
  rw [order]
  cases g.nodeCount with
  | zero => rfl
  | succ n => rw [take, hend]

/-- A traversal begins with the first of its start nodes. -/
theorem head?_order (hg : g.Consistent) (hl : g.Listed) :
    (order g root).head? = (starts g root).head? := by
  cases hstarts : starts g root with
  | nil => rw [order_eq_nil hstarts]
  | cons n rest =>
    obtain ⟨later, horder⟩ := starts_prefix_order hg hl root
    rw [← horder, hstarts]
    rfl

/-- A traversal from a declared root starts there. -/
theorem starts_root {n : String} (hn : n ∈ g.nodes) : starts g (some n) = [n] :=
  if_pos ((g.dependencies.contains_iff n).mpr hn)

end Traversal

/-! ## Configurations -/

open Blueprint (ofConfig)

variable (c : Config)

/-- Where no unknown dependency is told, all dependencies are targets. -/
theorem mem_targets_of_dependsOn
    (hknown : ∀ t d, .unknownDependency t d ∉ (ofConfig c).violations) {t d : String}
    (hd : c.DependsOn t d) : d ∈ c.targets.keys := by
  by_contra hunknown
  exact hknown t d ((mem_violations_iff c rfl).mpr (.unknownDependency hd hunknown))

/-- Where there is no target to start from, dependencies lead astray or in a circle. -/
theorem not_only_noRootTarget (hsome : c.targets.keys ≠ [])
    (h : .noRootTarget ∈ (ofConfig c).violations) :
    (∃ path, .dependencyCycle path ∈ (ofConfig c).violations) ∨
      ∃ t d, .unknownDependency t d ∈ (ofConfig c).violations := by
  refine or_iff_not_imp_right.mpr fun hknown => ?_
  push Not at hknown
  rw [exists_dependencyCycle_mem_iff]
  -- each target leads on to a target, and there are finitely many of them
  refine cyclic_of_forall_exists hsome fun t ht => ?_
  cases breaks_of_mem_violations c h with
  | noRootTarget noRoot =>
    obtain ⟨d, hd⟩ := List.exists_mem_of_ne_nil _ (noRoot t ht)
    have htarget := mem_targets_of_dependsOn c hknown hd
    exact ⟨d, htarget, hd, htarget⟩

/-- Without unknown dependencies, a target is independent exactly when it is a root of the graph.
-/
theorem independent_eq_roots (hknown : ∀ t d, .unknownDependency t d ∉ (ofConfig c).violations) :
    (ofConfig c).dependencies.independent = (ofConfig c).graph.roots := by
  refine (Graph.roots_build fun e he d hd => ?_).symm
  have hget := ((ofConfig c).dependencies.get?_eq_some_iff e.1 e.2).mpr he
  have hdeps : (ofConfig c).dependenciesOf e.1 = e.2 := by
    rw [Blueprint.dependenciesOf, hget]
    rfl
  rw [← hdeps, Blueprint.mem_dependenciesOf_ofConfig] at hd
  show d ∈ (ofConfig c).dependencies.keys
  rw [Blueprint.keys_dependencies_ofConfig]
  exact mem_targets_of_dependsOn c hknown hd

/-- The order of installation begins with the first root of the graph. -/
theorem head?_order_ofConfig : (ofConfig c).order.head? = (ofConfig c).graph.roots.head? :=
  Traversal.head?_order (Blueprint.graph_consistent c) (Graph.build_listed _)

/-- The detailed listing begins with the first target that declares nothing. -/
theorem detailText_ofConfig {root : String} {rest : List String}
    (h : (ofConfig c).dependencies.independent = root :: rest) :
    ∃ more, (ofConfig c).detailText = Text.lines (root :: more) := by
  have hroot : root ∈ (ofConfig c).graph.nodes := by
    rw [Blueprint.nodes_ofConfig]
    exact ((mem_independent c root).mp (h ▸ List.mem_cons_self ..)).1
  have hfirst : (Traversal.order (ofConfig c).graph (some root)).head? = some root := by
    rw [Traversal.head?_order (Blueprint.graph_consistent c) (Graph.build_listed _),
      Traversal.starts_root hroot]
    rfl
  obtain ⟨later, horder⟩ := List.head?_eq_some_iff.mp hfirst
  rw [Blueprint.detailText, h]
  dsimp only
  rw [horder, List.flatMap_cons]
  exact ⟨_, rfl⟩

/-- **Where installation starts.** Where a configuration has targets, that none of them is one to
start from is never all that is told: a circle or an unknown dependency is told too. Where no
unknown dependency is told, the targets that declare nothing are the roots of the graph, in the
same order; the order of installation and the detailed listing both begin with the first of them,
and are both empty if there is none. -/
theorem starts_agree :
    (c.targets.keys ≠ [] → .noRootTarget ∈ (ofConfig c).violations →
      (∃ path, .dependencyCycle path ∈ (ofConfig c).violations) ∨
        ∃ t d, .unknownDependency t d ∈ (ofConfig c).violations) ∧
    ((∀ t d, .unknownDependency t d ∉ (ofConfig c).violations) →
      (ofConfig c).dependencies.independent = (ofConfig c).graph.roots ∧
      ((ofConfig c).graph.roots = [] →
        (ofConfig c).order = [] ∧ (ofConfig c).detailText = "") ∧
      ∀ root rest, (ofConfig c).graph.roots = root :: rest →
        (ofConfig c).order.head? = some root ∧
        ∃ more, (ofConfig c).detailText = Text.lines (root :: more)) := by
  refine ⟨not_only_noRootTarget c, fun hknown => ?_⟩
  have hsame := independent_eq_roots c hknown
  refine ⟨hsame, fun hnone => ⟨?_, ?_⟩, fun root rest hroots => ⟨?_, ?_⟩⟩
  · exact Traversal.order_eq_nil hnone
  · rw [Blueprint.detailText, hsame, hnone]
  · rw [head?_order_ofConfig, hroots]
    rfl
  · exact detailText_ofConfig c (hsame.trans hroots)

/-- Two targets that depend on each other. -/
def Config.circular : Config where
  version := "1.0"
  name := "circular"
  targets :=
    ⟨[("editor", { dependsOn := ["plugins"], recipe := [.command "make editor"] }),
      ("plugins", { dependsOn := ["editor"], recipe := [.command "make plugins"] })], by decide⟩

/-- A configuration whose targets need each other, and one with a root. -/
theorem starts_agree_circular :
    (.noRootTarget ∈ (ofConfig .circular).violations ∧
      ((∃ path, .dependencyCycle path ∈ (ofConfig .circular).violations) ∨
        ∃ t d, .unknownDependency t d ∈ (ofConfig .circular).violations)) ∧
    (∀ t d, .unknownDependency t d ∉ (ofConfig .layered).violations) ∧
    (ofConfig .layered).dependencies.independent = (ofConfig .layered).graph.roots ∧
    (ofConfig .layered).order.head? = some "base" := by
  have hnone : .noRootTarget ∈ (ofConfig .circular).violations := by decide
  have hknown : ∀ t d, .unknownDependency t d ∉ (ofConfig .layered).violations := by
    rw [((Loaded.ofConfig_eq_ok_iff _ _).mp layered_accepted).2]
    exact fun _ _ => List.not_mem_nil
  obtain ⟨hsame, -, hfirst⟩ := (starts_agree .layered).2 hknown
  exact ⟨⟨hnone, (starts_agree .circular).1 (by decide) hnone⟩, hknown, hsame,
    (hfirst "base" [] (by decide)).1⟩

end Provision
