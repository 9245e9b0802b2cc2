import Provision.Proofs.Validation.Exact

/-!
# The order of installation

A configuration that is accepted has no dependency cycle and refers to declared targets only.
So its graph holds all that its targets depend on, and the traversal covers all of it.

> `order_complete`: each declared target comes exactly once, after all that it depends on;
> `order_arranged`: the same, as a pass over the targets one after another needs it.
-/

namespace Provision

/-! ## Accepted configurations -/

section Accepted

variable {c : Config} {b : Blueprint}

/-- A configuration that loads is the blueprint built from it: loading refuses, it does not
repair. -/
theorem eq_ofConfig_of_accepted (h : (Loaded.ofConfig c).result = .ok b) :
    b = Blueprint.ofConfig c :=
  ((Loaded.ofConfig_eq_ok_iff c b).mp h).1

/-- No rule is broken by a configuration that loads. -/
theorem not_breaks_of_accepted (h : (Loaded.ofConfig c).result = .ok b) (v : Violation) :
    ¬ c.Breaks v :=
  (accepted_iff c).mp ⟨b, h⟩ v

/-- Accepted targets depend on declared ones only. -/
theorem declared_of_accepted (h : (Loaded.ofConfig c).result = .ok b) {t d : String}
    (hd : c.DependsOn t d) : d ∈ c.targets.keys := by
  by_contra hunknown
  exact not_breaks_of_accepted h _ (.unknownDependency hd hunknown)

/-- The graph of an accepted configuration has no cycle. -/
theorem acyclic_of_accepted (h : (Loaded.ofConfig c).result = .ok b) :
    ¬ Cyclic b.graph.Needs := by
  have hvalid : (Blueprint.ofConfig c).violations = [] :=
    ((Loaded.ofConfig_eq_ok_iff c b).mp h).2
  have hneeds : b.graph.Needs = c.Needs := by
    rw [eq_ofConfig_of_accepted h]
    funext t d
    exact propext (Blueprint.needs_ofConfig c t d)
  rw [hneeds, ← exists_dependencyCycle_mem_iff, hvalid]
  simp

/-- In an accepted configuration all that a target depends on is in the graph. -/
theorem needs_of_accepted (h : (Loaded.ofConfig c).result = .ok b) {t d : String}
    (hd : c.DependsOn t d) : b.graph.Needs t d := by
  rw [eq_ofConfig_of_accepted h, Blueprint.needs_ofConfig]
  exact ⟨hd, declared_of_accepted h hd⟩

/-- In an accepted configuration every dependency is declared, so all of them are edges. -/
theorem mem_dependenciesOf_of_accepted (h : (Loaded.ofConfig c).result = .ok b) (t d : String) :
    d ∈ b.dependenciesOf t ↔ c.DependsOn t d := by
  rw [eq_ofConfig_of_accepted h]
  exact Blueprint.mem_dependenciesOf_ofConfig c t d

/-- The graph of an accepted configuration is consistent. -/
theorem consistent_of_accepted (h : (Loaded.ofConfig c).result = .ok b) : b.graph.Consistent := by
  rw [eq_ofConfig_of_accepted h]
  exact Blueprint.graph_consistent c

/-! ## The order of an accepted configuration -/

/-- The order of an accepted configuration is its targets, rearranged. -/
theorem order_perm_targets (h : (Loaded.ofConfig c).result = .ok b) :
    b.order.Perm c.targets.keys := by
  have hperm := Traversal.order_perm_nodes (consistent_of_accepted h) (acyclic_of_accepted h)
  have hnodes : b.graph.nodes = c.targets.keys := by
    rw [eq_ofConfig_of_accepted h, Blueprint.nodes_ofConfig]
  rwa [hnodes] at hperm

theorem order_nodup (h : (Loaded.ofConfig c).result = .ok b) : b.order.Nodup :=
  (order_perm_targets h).nodup_iff.mpr c.targets.keys_nodup

theorem mem_order_iff (h : (Loaded.ofConfig c).result = .ok b) (t : String) :
    t ∈ b.order ↔ t ∈ c.targets.keys :=
  (order_perm_targets h).mem_iff

/-- A target comes after each of its dependencies. -/
theorem precedes_of_dependsOn (h : (Loaded.ofConfig c).result = .ok b) {t d : String}
    (hd : c.DependsOn t d) : Precedes b.order d t :=
  Traversal.order_precedes (consistent_of_accepted h) (acyclic_of_accepted h)
    (needs_of_accepted h hd)

/-- **The order of installation is complete.** It is all that the traversal of the graph emits
until its end; each declared target comes exactly once, and after all that it depends on. -/
theorem order_complete (h : (Loaded.ofConfig c).result = .ok b) :
    (∃ t, Traversal.Emits (Traversal.start b.graph none) b.order t ∧ t.next = none) ∧
    b.order.Nodup ∧
    (∀ t, t ∈ b.order ↔ t ∈ c.targets.keys) ∧
    ∀ t d, c.DependsOn t d → Precedes b.order d t := by
  obtain ⟨t, hrun, hend, -⟩ := Traversal.order_emits (consistent_of_accepted h) none
  exact ⟨⟨t, hrun, (Traversal.next_eq_none_iff t).mpr hend⟩, order_nodup h, mem_order_iff h,
    fun t d hd => precedes_of_dependsOn h hd⟩

end Accepted

/-- Three targets, written in the reverse of their order, with a dependency written twice. -/
def Config.layered : Config where
  version := "1.0"
  name := "layered"
  targets :=
    ⟨[("app", { dependsOn := ["lib", "base", "lib"], recipe := [.command "make app"] }),
      ("lib", { dependsOn := ["base"], recipe := [.command "make lib"] }),
      ("base", { recipe := [.command "make base"] })], by decide⟩

/-- The three layered targets are accepted. -/
theorem layered_accepted :
    (Loaded.ofConfig .layered).result = .ok (Blueprint.ofConfig .layered) :=
  (Loaded.ofConfig_eq_ok_iff _ _).mpr ⟨rfl, by decide⟩

/-- The order of the layered targets has the library before the application. -/
theorem order_complete_layered :
    (Loaded.ofConfig .layered).result = .ok (Blueprint.ofConfig .layered) ∧
    Precedes (Blueprint.ofConfig .layered).order "lib" "app" :=
  ⟨layered_accepted, (order_complete layered_accepted).2.2.2 "app" "lib" (by decide)⟩

example : (Blueprint.ofConfig .layered).order = ["base", "lib", "app"] := by decide

/-! ## Passes in this order -/

/-- Whether each target of a list stands there once, after all that it depends on. -/
structure Blueprint.Arranged (b : Blueprint) (targets : List String) : Prop where
  nodup : targets.Nodup
  dependencies : ∀ before t after, targets = before ++ t :: after →
    ∀ d ∈ b.dependenciesOf t, d ∈ before

/-- What stands before a target does not stand after it, and the target stands in one place. -/
theorem Blueprint.Arranged.split {b : Blueprint} {targets before after : List String}
    {t : String} (h : b.Arranged targets) (hsplit : targets = before ++ t :: after) :
    (∀ d ∈ before, d ∉ t :: after) ∧ t ∉ before ∧ t ∉ after := by
  have hnodup := h.nodup
  rw [hsplit] at hnodup
  obtain ⟨-, htail, hdisjoint⟩ := List.nodup_append.mp hnodup
  have hbefore : ∀ d ∈ before, d ∉ t :: after := fun d hd hlate => hdisjoint d hd d hlate rfl
  exact ⟨hbefore, fun ht => hbefore t ht (List.mem_cons_self ..), (List.nodup_cons.mp htail).1⟩

/-- What passes from the dependencies of a target to the target holds of all targets. -/
theorem Blueprint.Arranged.induction {b : Blueprint} {targets : List String}
    {P : String → Prop} (h : b.Arranged targets)
    (step : ∀ t ∈ targets, (∀ d ∈ b.dependenciesOf t, P d) → P t) : ∀ t ∈ targets, P t := by
  refine forall_mem_of_forall_before fun before t after hsplit hall => ?_
  have ht : t ∈ targets := hsplit ▸ List.mem_append_right _ (List.mem_cons_self ..)
  exact step t ht fun d hd => hall d (h.dependencies before t after hsplit d hd)

/-- The whole order is arranged: every prefix of it holds the dependencies of what comes next. -/
theorem order_arranged {c : Config} {b : Blueprint} (h : (Loaded.ofConfig c).result = .ok b) :
    b.Arranged b.order := by
  refine ⟨order_nodup h, fun before t after hsplit d hd => ?_⟩
  have hdepends := (mem_dependenciesOf_of_accepted h t d).mp hd
  exact (precedes_of_dependsOn h hdepends).mem_before (order_nodup h) hsplit

end Provision
