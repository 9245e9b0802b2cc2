import Mathlib.Data.List.Nodup
import Mathlib.Logic.Relation
import Provision.Graph.Traversal
import Provision.Proofs.Distinct
import Provision.Proofs.Graph.Edges

/-!
# The scope of a traversal

A traversal covers what its start nodes lead to, along edges from dependencies to dependents.
`reach` collects it with a frontier: the names that have left the frontier and those that are
in it are together the names found so far, each of them once, and all dependents of the former
have been found (`Reaching`). Each round moves one name, so that the number of nodes bounds the
rounds and the frontier is empty at the end.

> `scope_reaching`: the scope is closed under dependents;
> `mem_scope_iff`: a name is covered exactly if a start node leads to it.
-/

namespace Provision.Traversal

variable {g : Graph} {root : Option String} {first visited frontier : List String}

/-- An edge from a dependency to a dependent. -/
def Leads (g : Graph) (d n : String) : Prop := n ∈ g.dependentsOf d

/-- The invariant of `reach`: what has been found, split into the names whose dependents have
been found too and the frontier. -/
structure Reaching (g : Graph) (first visited frontier : List String) : Prop where
  nodup : (visited ++ frontier).Nodup
  nodes : ∀ n ∈ visited ++ frontier, n ∈ g.nodes
  closed : ∀ d ∈ visited, ∀ n ∈ g.dependentsOf d, n ∈ visited ++ frontier
  starting : first <+: visited ++ frontier
  reached : ∀ n ∈ visited ++ frontier, ∃ s ∈ first, Relation.ReflTransGen (Leads g) s n

theorem nodeCount_eq (g : Graph) : g.nodeCount = g.nodes.length :=
  g.dependencies.size_eq_length_keys

/-- One round: a name leaves the frontier, and the names that it newly leads to enter it. -/
theorem Reaching.step {d : String} (hg : g.Consistent)
    (h : Reaching g first visited (d :: frontier)) :
    Reaching g first (visited ++ [d]) (frontier ++
      (g.dependentsOf d).eraseDups.filter fun n => !(visited ++ d :: frontier).contains n) := by
  have hsame : ∀ new : List String,
      visited ++ [d] ++ (frontier ++ new) = (visited ++ d :: frontier) ++ new := by simp
  have hnew : ∀ n ∈ (g.dependentsOf d).eraseDups.filter
      (fun n => !(visited ++ d :: frontier).contains n),
      n ∈ g.dependentsOf d ∧ n ∉ visited ++ d :: frontier := by
    intro n hn
    rw [List.mem_filter, List.mem_eraseDups, Bool.not_eq_true', ← Bool.not_eq_true,
      List.contains_iff_mem] at hn
    exact hn
  have hd : d ∈ visited ++ d :: frontier := by simp
  refine ⟨?_, ?_, ?_, ?_, ?_⟩ <;> rw [hsame]
  · refine List.nodup_append.mpr ⟨h.nodup, (nodup_eraseDups _).filter _, ?_⟩
    rintro a ha b hb rfl
    exact (hnew a hb).2 ha
  · intro n hn
    rcases List.mem_append.mp hn with hn | hn
    · exact h.nodes n hn
    · exact Graph.mem_nodes_of_mem_dependenciesOf ((hg.mem_dependentsOf_iff n d).mp (hnew n hn).1)
  · intro e he n hn
    rcases List.mem_append.mp he with he | he
    · exact List.mem_append_left _ (h.closed e he n hn)
    · -- the dependents of the name that leaves have been found, or are found now
      rw [List.mem_singleton.mp he] at hn
      by_cases hold : n ∈ visited ++ d :: frontier
      · exact List.mem_append_left _ hold
      · refine List.mem_append_right _ (List.mem_filter.mpr ⟨List.mem_eraseDups.mpr hn, ?_⟩)
        simpa using hold
  · exact h.starting.trans (List.prefix_append _ _)
  · intro n hn
    rcases List.mem_append.mp hn with hn | hn
    · exact h.reached n hn
    · obtain ⟨s, hs, hsd⟩ := h.reached d hd
      exact ⟨s, hs, hsd.tail (hnew n hn).1⟩

/-- The rounds end with an empty frontier: as many as there are nodes are enough. -/
theorem reach_reaching (hg : g.Consistent) :
    ∀ (fuel : Nat) {visited frontier : List String}, Reaching g first visited frontier →
      g.nodeCount ≤ fuel + visited.length →
      Reaching g first (reach g fuel frontier (visited ++ frontier)) [] := by
  intro fuel
  induction fuel with
  | zero =>
    -- as many names have left the frontier as there are nodes: none is in it
    intro visited frontier h hfuel
    have hlen := h.nodup.length_le_of_subset h.nodes
    rw [List.length_append, ← nodeCount_eq] at hlen
    obtain rfl : frontier = [] := List.length_eq_zero_iff.mp (by omega)
    rw [List.append_nil]
    exact h
  | succ fuel ih =>
    intro visited frontier h hfuel
    cases frontier with
    | nil => rw [List.append_nil]; exact h
    | cons d frontier =>
      have hnext := ih (h.step hg) (by simp; omega)
      rw [reach]
      simpa using hnext

/-! ## The start nodes -/

/-- No node is a start twice. -/
theorem starts_nodup (g : Graph) (root : Option String) : (starts g root).Nodup := by
  cases root with
  | none => exact g.roots_nodup
  | some r =>
    rw [starts]
    split <;> simp

theorem mem_nodes_of_mem_starts {n : String} (h : n ∈ starts g root) : n ∈ g.nodes := by
  cases root with
  | none => exact ((g.mem_roots_iff n).mp h).1
  | some r =>
    rw [starts] at h
    split at h
    next hr =>
      rw [List.mem_singleton.mp h]
      exact (g.dependencies.contains_iff r).mp hr
    next => simp at h

/-! ## The scope -/

/-- **The scope is closed.** It holds the start nodes and all that they lead to, each once. -/
theorem scope_reaching (hg : g.Consistent) (root : Option String) :
    Reaching g (starts g root) (scope g root) [] := by
  have hstart : Reaching g (starts g root) [] (starts g root) :=
    ⟨starts_nodup g root, fun _ hn => mem_nodes_of_mem_starts hn, by simp, List.prefix_rfl,
      fun n hn => ⟨n, hn, .refl⟩⟩
  exact reach_reaching hg g.nodeCount hstart (by simp)

/-- No node is within reach twice, although many ways may lead to it. -/
theorem scope_nodup (hg : g.Consistent) (root : Option String) : (scope g root).Nodup := by
  simpa using (scope_reaching hg root).nodup

theorem mem_scope_of_mem_starts (hg : g.Consistent) {n : String} (h : n ∈ starts g root) :
    n ∈ scope g root := by
  simpa using (scope_reaching hg root).starting.subset h

theorem mem_nodes_of_mem_scope (hg : g.Consistent) {n : String} (h : n ∈ scope g root) :
    n ∈ g.nodes :=
  (scope_reaching hg root).nodes n (by simpa using h)

/-- Dependents of covered names are covered. -/
theorem mem_scope_of_mem_dependenciesOf (hg : g.Consistent) {n d : String}
    (h : d ∈ scope g root) (hn : d ∈ g.dependenciesOf n) : n ∈ scope g root := by
  simpa using (scope_reaching hg root).closed d h n ((hg.mem_dependentsOf_iff n d).mpr hn)

/-- What is within reach of a traversal: whatever is led to from one of its starts. -/
theorem mem_scope_iff (hg : g.Consistent) (n : String) :
    n ∈ scope g root ↔ ∃ s ∈ starts g root, Relation.ReflTransGen (Leads g) s n := by
  constructor
  · intro h
    exact (scope_reaching hg root).reached n (by simpa using h)
  · rintro ⟨s, hs, hsn⟩
    induction hsn with
    | refl => exact mem_scope_of_mem_starts hg hs
    | tail _ hstep ih =>
      exact mem_scope_of_mem_dependenciesOf hg ih ((hg.mem_dependentsOf_iff _ _).mp hstep)

/-- A covered name that no traversal starts from depends on a covered one. -/
theorem exists_mem_dependenciesOf (hg : g.Consistent) {n : String} (h : n ∈ scope g root)
    (hn : n ∉ starts g root) : ∃ d ∈ g.dependenciesOf n, d ∈ scope g root := by
  obtain ⟨s, hs, hsn⟩ := (mem_scope_iff hg n).mp h
  rcases Relation.ReflTransGen.cases_tail hsn with rfl | ⟨d, hsd, hdn⟩
  · exact absurd hs hn
  · exact ⟨d, (hg.mem_dependentsOf_iff n d).mp hdn, (mem_scope_iff hg d).mpr ⟨s, hs, hsd⟩⟩

end Provision.Traversal
