import Mathlib.Data.Set.Finite.Basic
import Mathlib.Order.WellFounded
import Provision.Proofs.Distinct
import Provision.Proofs.Graph.Cycle
import Provision.Proofs.Graph.Traversal

/-!
# Graphs without cycles are traversed completely, dependencies first

If every name of a finite set leads to another one of the set, the set holds a cycle. This is
used twice. Among the nodes that are not covered each would depend on another such node, since
a node without dependencies is where the traversal starts. Among the names that wait in vain
each would wait for another such name.

> `order_perm_nodes`: every node is emitted exactly once;
> `order_precedes`: a node comes after all of its dependencies.
-/

namespace Provision

/-- Whether one name stands somewhere before another in a list. -/
def Precedes (l : List String) (a b : String) : Prop :=
  ∃ before after, l = before ++ b :: after ∧ a ∈ before

/-- In a list without repetitions there is one place only that a name stands in. -/
theorem Precedes.mem_before {l before after : List String} {a b : String} (h : Precedes l a b)
    (hnodup : l.Nodup) (hsplit : l = before ++ b :: after) : a ∈ before := by
  obtain ⟨before', after', hsplit', ha⟩ := h
  have hfirst : ∀ {xs ys : List String}, l = xs ++ b :: ys → l.takeWhile (· != b) = xs := by
    rintro xs ys rfl
    exact takeWhile_ne_append (fun hb => (List.nodup_append.mp hnodup).2.2 b hb b
      (List.mem_cons_self ..) rfl) ys
  rwa [← hfirst hsplit, hfirst hsplit']

/-- What passes from all that stands before a name to the name holds of the whole list. -/
theorem forall_mem_of_forall_before {l : List String} {P : String → Prop}
    (step : ∀ before n after, l = before ++ n :: after → (∀ m ∈ before, P m) → P n) :
    ∀ n ∈ l, P n := by
  have hbefore : ∀ before after, l = before ++ after → ∀ n ∈ before, P n := by
    intro before
    induction before using List.reverseRecOn with
    | nil => simp
    | append_singleton before last ih =>
      intro after hsplit n hn
      rw [List.append_assoc, List.singleton_append] at hsplit
      have hall := ih _ hsplit
      rcases List.mem_append.mp hn with hn | hn
      · exact hall n hn
      · rw [List.mem_singleton.mp hn]
        exact step before last after hsplit hall
  exact hbefore l [] (List.append_nil l).symm

/-- Finitely many names that each lead to one of them hold a cycle. -/
theorem cyclic_of_forall_exists {r : String → String → Prop} {l : List String} (hne : l ≠ [])
    (h : ∀ x ∈ l, ∃ y ∈ l, r x y) : Cyclic r := by
  by_contra hacyclic
  let above : {x // x ∈ l} → {x // x ∈ l} → Prop := fun y x => Relation.TransGen r x.1 y.1
  have htrans : IsTrans _ above := ⟨fun _ _ _ hab hbc => hbc.trans hab⟩
  have hirrefl : Std.Irrefl above := ⟨fun x hx => hacyclic ⟨x.1, hx⟩⟩
  -- going from name to name ends in a minimal one, which leads to none of them
  have hwf : WellFounded above := Finite.wellFounded_of_trans_of_irrefl above
  obtain ⟨x, hx⟩ := List.exists_mem_of_ne_nil l hne
  obtain ⟨m, -, hmin⟩ := hwf.has_min Set.univ ⟨⟨x, hx⟩, trivial⟩
  obtain ⟨y, hy, hstep⟩ := h m.1 m.2
  exact hmin ⟨y, hy⟩ trivial (.single hstep)

namespace Graph

/-- The relation of a graph: what a node depends on. -/
def Needs (g : Graph) (n d : String) : Prop := d ∈ g.dependenciesOf n

/-- The search of a graph follows its relation. -/
theorem follows_iff {g : Graph} {n d : String} :
    Follows g.nodes g.dependenciesOf n d ↔ g.Needs n d :=
  ⟨fun h => h.2, fun h => ⟨mem_nodes_of_mem_dependenciesOf h, h⟩⟩

end Graph

namespace Traversal

variable {g : Graph} {root : Option String}

/-- A name that still waits at the end of a traversal waits for another such name. -/
theorem Invariant.exists_pending {out : List String} {t : Traversal}
    (h : Invariant g root out [] t) (hend : t.queue = []) {n : String}
    (hn : n ∈ t.pending.map Prod.fst) :
    ∃ d ∈ t.pending.map Prod.fst, d ∈ g.dependenciesOf n := by
  obtain ⟨e, he, rfl⟩ := List.mem_map.mp hn
  obtain ⟨hcount, hpos⟩ := h.counts e he
  rw [List.count_nil, Nat.add_zero] at hcount
  rw [hcount, waiting] at hpos
  obtain ⟨d, hd, hwait⟩ := List.countP_pos_iff.mp hpos
  simp only [Bool.and_eq_true, Bool.not_eq_true', List.contains_eq_mem, decide_eq_true_eq,
    decide_eq_false_iff_not] at hwait
  have hcovered := h.covers.symm.subset hwait.1
  rw [hend, List.append_nil, List.mem_append] at hcovered
  exact ⟨d, hcovered.resolve_left hwait.2, hd⟩

/-- Without cycles every node is covered: going from dependency to dependency ends at a root. -/
theorem mem_scope_of_acyclic (hg : g.Consistent) (hacyclic : ¬ Cyclic g.Needs) {n : String}
    (hn : n ∈ g.nodes) : n ∈ scope g none := by
  by_contra hout
  refine hacyclic (cyclic_of_forall_exists
    (l := g.nodes.filter fun n => !(scope g none).contains n) ?_ ?_)
  · exact List.ne_nil_of_mem (List.mem_filter.mpr ⟨hn, by simpa using hout⟩)
  · -- a node that is not covered is no root, and no dependency of it is covered
    intro m hm
    obtain ⟨hm, hmout⟩ := List.mem_filter.mp hm
    have hmout : m ∉ scope g none := by simpa using hmout
    have hdeps : g.dependenciesOf m ≠ [] := fun hnone =>
      hmout (mem_scope_of_mem_starts hg ((g.mem_roots_iff m).mpr ⟨hm, hnone⟩))
    obtain ⟨d, hd⟩ := List.exists_mem_of_ne_nil _ hdeps
    refine ⟨d, List.mem_filter.mpr ⟨hg.declared m d hd, ?_⟩, hd⟩
    simpa using fun hdin => hmout (mem_scope_of_mem_dependenciesOf hg hdin hd)

/-- **Completeness.** Without cycles every node is emitted exactly once. -/
theorem order_perm_nodes (hg : g.Consistent) (hacyclic : ¬ Cyclic g.Needs) :
    (order g none).Perm g.nodes := by
  obtain ⟨t, -, hend, hinv⟩ := order_emits hg none
  have hpending : t.pending.map Prod.fst = [] := by
    by_contra hne
    exact hacyclic (cyclic_of_forall_exists hne fun n hn => hinv.exists_pending hend hn)
  have hcovers := hinv.covers
  rw [hend, hpending, List.append_nil, List.append_nil] at hcovers
  refine hcovers.trans
    ((List.perm_ext_iff_of_nodup (scope_nodup hg none) g.dependencies.nodup).mpr fun n => ?_)
  exact ⟨mem_nodes_of_mem_scope hg, mem_scope_of_acyclic hg hacyclic⟩

/-- **Dependencies first.** Without cycles a node comes after all of its dependencies. -/
theorem order_precedes (hg : g.Consistent) (hacyclic : ¬ Cyclic g.Needs) {n d : String}
    (hd : g.Needs n d) : Precedes (order g none) d n := by
  obtain ⟨t, -, -, hinv⟩ := order_emits hg none
  have hn : n ∈ order g none := (order_perm_nodes hg hacyclic).mem_iff.mpr
    (Graph.mem_nodes_of_mem_dependenciesOf hd)
  obtain ⟨before, after, hsplit⟩ := List.append_of_mem hn
  refine ⟨before, after, hsplit, ?_⟩
  rcases hinv.ordered before n after hsplit with hroot | hzero
  · -- a root depends on nothing
    have hnone := ((g.mem_roots_iff n).mp hroot).2
    rw [Graph.Needs, hnone] at hd
    simp at hd
  · exact waiting_eq_zero_iff.mp hzero d hd
      (mem_scope_of_acyclic hg hacyclic (hg.declared n d hd))

end Traversal

end Provision
