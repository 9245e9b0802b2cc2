import Provision.Blueprint
import Provision.Proofs.Graph.Agreement
import Provision.Proofs.Graph.Closure

/-!
# Only the set of dependencies matters

A dependency that is declared more than once makes an edge for each time: the counters of waiting
names are larger, and more arrivals are due. Dependencies in another order push these edges in
another order. Neither shows. Two graphs with the same nodes and the same edges, repetitions and
order aside, are `Alike`; they start alike, cover the same names and free the same blocks, so that
two traversals which have emitted the same names have the same queue.

> `queue_eq`: after the same names the queues are the same;
> `order_congr`: graphs that are alike are traversed in the same order;
> `order_of_sameSets`: indices that declare the same sets of dependencies.
-/

namespace Provision

namespace Graph

/-- Whether two graphs have the same nodes, in the same order, and the same edges between them,
however often and in whatever order these are told. -/
structure Alike (g g' : Graph) : Prop where
  nodes : g.nodes = g'.nodes
  needs : ∀ n d, g.Needs n d ↔ g'.Needs n d

namespace Alike

variable {g g' : Graph}

/-- Graphs that are alike have equally many nodes. -/
theorem nodeCount (h : g.Alike g') : g.nodeCount = g'.nodeCount := by
  rw [Traversal.nodeCount_eq, Traversal.nodeCount_eq, h.nodes]

theorem isEmpty (h : g.Alike g') (n : String) :
    (g.dependenciesOf n).isEmpty = (g'.dependenciesOf n).isEmpty := by
  have hmem : ∀ d, d ∈ g.dependenciesOf n ↔ d ∈ g'.dependenciesOf n := h.needs n
  rw [Bool.eq_iff_iff, List.isEmpty_iff, List.isEmpty_iff, List.eq_nil_iff_forall_not_mem,
    List.eq_nil_iff_forall_not_mem]
  exact forall_congr' fun d => not_congr (hmem d)

/-- Graphs that are alike have the same edges. -/
theorem leads_iff (h : g.Alike g') (hg : g.Consistent) (hg' : g'.Consistent) (d n : String) :
    Traversal.Leads g d n ↔ Traversal.Leads g' d n := by
  rw [Traversal.Leads, Traversal.Leads, hg.mem_dependentsOf_iff, hg'.mem_dependentsOf_iff]
  exact h.needs n d

end Alike

end Graph

namespace Traversal

variable {g g' : Graph} {root : Option String}

/-! ## Starting, covering and freeing alike -/

/-- Where a traversal starts depends on the edges alone. -/
theorem isStart_congr (h : g.Alike g') (root : Option String) :
    isStart g root = isStart g' root := by
  funext n
  cases root with
  | none => exact h.isEmpty n
  | some r => rfl

/-- Alike graphs are traversed from the same nodes, in the same order. -/
theorem starts_congr (h : g.Alike g') (root : Option String) : starts g root = starts g' root := by
  rw [starts_eq, starts_eq, h.nodes, isStart_congr h]

section Congruence

variable (h : g.Alike g') (hg : g.Consistent) (hg' : g'.Consistent)
include h hg hg'

/-- Alike graphs have the same nodes within reach. -/
theorem mem_scope_congr (n : String) : n ∈ scope g root ↔ n ∈ scope g' root := by
  have hleads : Leads g = Leads g' := by
    funext d n
    exact propext (h.leads_iff hg hg' d n)
  rw [mem_scope_iff hg, mem_scope_iff hg', starts_congr h, hleads]

/-- How many dependencies a name waits for may differ, but not whether it waits. -/
theorem waiting_eq_zero_congr (out : List String) (n : String) :
    waiting g root out n = 0 ↔ waiting g' root out n = 0 := by
  rw [waiting_eq_zero_iff, waiting_eq_zero_iff]
  refine forall_congr' fun d => ?_
  rw [mem_scope_congr h hg hg']
  exact imp_congr_left (h.needs n d)

/-- The same nodes become free at the same moment: what is waited for is a set of dependencies. -/
theorem freed_congr (out : List String) (c : String) :
    freed g root out c = freed g' root out c := by
  rw [freed, freed, h.nodes]
  refine List.filter_congr fun n _ => ?_
  have hscope : (scope g root).contains n = (scope g' root).contains n := by
    rw [Bool.eq_iff_iff, List.contains_iff_mem, List.contains_iff_mem]
    exact mem_scope_congr h hg hg' n
  have hwait : ∀ out, (waiting g root out n == 0) = (waiting g' root out n == 0) := by
    intro out
    rw [Bool.eq_iff_iff, beq_iff_eq, beq_iff_eq]
    exact waiting_eq_zero_congr h hg hg' out n
  rw [hscope, starts_congr h, hwait, bne, bne, hwait]

/-- The nodes that become free along a sequence of emissions are the same, emission by emission.
-/
theorem blocks_congr : ∀ (rest out : List String),
    blocks g root out rest = blocks g' root out rest := by
  intro rest
  induction rest with
  | nil => intro out; rfl
  | cons c rest ih => intro out; rw [blocks, blocks, freed_congr h hg hg', ih]

end Congruence

/-! ## Two traversals side by side -/

/-- What is known of a traversal between its steps: its counters, and its queue. -/
structure Tracked (g : Graph) (root : Option String) (out : List String) (t : Traversal) :
    Prop where
  invariant : Invariant g root out [] t
  queued : Queued g root out t

/-- A traversal at its start is tracked by the empty list. -/
theorem start_tracked (hg : g.Consistent) (root : Option String) :
    Tracked g root [] (start g root) :=
  ⟨start_invariant hg root, start_queued g root⟩

/-- A traversal stays tracked by what it has emitted. -/
theorem Tracked.next (hg : g.Consistent) (hl : g.Listed) {out : List String} {t t' : Traversal}
    {c : String} (h : Tracked g root out t) (hnext : t.next = some (c, t')) :
    Tracked g root (out ++ [c]) t' :=
  ⟨next_invariant hg h.invariant hnext,
    (Emits.step hnext (.stay t')).queued hg hl h.invariant h.queued⟩

section InStep

variable (h : g.Alike g') (hg : g.Consistent) (hg' : g'.Consistent)
include h hg hg'

/-- After the same names the queues are the same. -/
theorem queue_eq {out : List String} {t t' : Traversal} (ht : Tracked g root out t)
    (ht' : Tracked g' root out t') : t.queue = t'.queue := by
  -- what is emitted or queued is a function of what is emitted, and the same for both graphs
  have hsame : out ++ t.queue = out ++ t'.queue := by
    rw [ht.queued, ht'.queued, starts_congr h, blocks_congr h hg hg']
  exact List.append_cancel_left hsame

/-- **Two traversals of graphs that are alike stay in step.** The induction is on the names that are
left to emit; the names emitted so far tie the two states together. -/
theorem take_congr (hl : g.Listed) (hl' : g'.Listed) :
    ∀ (k : Nat) {out : List String} {t t' : Traversal}, Tracked g root out t →
      Tracked g' root out t' → take k t = take k t' := by
  intro k
  induction k with
  | zero => intro out t t' _ _; rfl
  | succ k ih =>
    intro out t t' ht ht'
    have hqueue := queue_eq h hg hg' ht ht'
    cases hq : t.queue with
    | nil =>
      rw [take, take, (next_eq_none_iff t).mpr hq, (next_eq_none_iff t').mpr (hqueue ▸ hq)]
    | cons c rest =>
      -- both emit the head of the queue; the states that follow need not be equal
      obtain ⟨u, hu⟩ : ∃ u, t.next = some (c, u) := by
        rw [Traversal.next, hq]
        exact ⟨_, rfl⟩
      obtain ⟨u', hu'⟩ : ∃ u', t'.next = some (c, u') := by
        rw [Traversal.next, ← hqueue, hq]
        exact ⟨_, rfl⟩
      rw [take, take, hu, hu']
      exact congrArg (c :: ·) (ih (ht.next hg hl hu) (ht'.next hg' hl' hu'))

/-- Alike graphs are traversed in the same order. -/
theorem order_congr (hl : g.Listed) (hl' : g'.Listed) (root : Option String) :
    order g root = order g' root := by
  rw [order, order, h.nodeCount]
  exact take_congr h hg hg' hl hl' _ (start_tracked hg root) (start_tracked hg' root)

end InStep

end Traversal

/-! ## Cycles alike -/

theorem Graph.Alike.findCycle_eq_none_iff {g g' : Graph} (h : g.Alike g') (hg : g.Consistent)
    (hg' : g'.Consistent) : g.findCycle = none ↔ g'.findCycle = none := by
  have hneeds : g.Needs = g'.Needs := by
    funext n d
    exact propext (h.needs n d)
  rw [Graph.findCycle_eq_none_iff hg, Graph.findCycle_eq_none_iff hg', hneeds]

/-! ## Indices -/

/-- Whether two indices declare the same names, in the same order, and for each name the same set
of dependencies. -/
structure DependencyIndex.SameSets (index index' : DependencyIndex) : Prop where
  names : index.keys = index'.keys
  sets : ∀ t d, d ∈ (index.get? t).getD [] ↔ d ∈ (index'.get? t).getD []

/-- Two indexes with the same sets of dependencies build alike graphs. -/
theorem DependencyIndex.SameSets.alike {index index' : DependencyIndex}
    (h : index.SameSets index') : (Graph.build index).Alike (Graph.build index') := by
  refine ⟨?_, fun n d => ?_⟩
  · rw [Graph.nodes_build, Graph.nodes_build, h.names]
  · rw [Graph.Needs, Graph.Needs, Graph.mem_dependenciesOf_build, Graph.mem_dependenciesOf_build,
      h.sets, h.names]

theorem DependencyIndex.SameSets.order_eq {index index' : DependencyIndex}
    (h : index.SameSets index') (root : Option String) :
    Traversal.order (Graph.build index) root = Traversal.order (Graph.build index') root :=
  Traversal.order_congr h.alike (Graph.build_consistent index) (Graph.build_consistent index')
    (Graph.build_listed index) (Graph.build_listed index') root

/-- The dependencies of a configuration as they are written, repetitions included. -/
def Config.writtenDependencies (c : Config) : DependencyIndex :=
  c.targets.map fun _ t => t.dependsOn

/-- Taking repetitions out of the dependencies leaves their sets. -/
theorem Config.dependencyIndex_sameSets (c : Config) :
    (Blueprint.dependencyIndex c).SameSets c.writtenDependencies := by
  refine ⟨?_, fun t d => ?_⟩
  · rw [Blueprint.dependencyIndex, writtenDependencies, Registry.keys_map, Registry.keys_map]
  · rw [Blueprint.dependencyIndex, writtenDependencies, Registry.get?_map, Registry.get?_map]
    cases c.targets.get? t with
    | none => rfl
    | some decl => exact List.mem_eraseDups

/-- **Only the set of dependencies matters.** Two indices that declare the same sets of
dependencies, whatever these refer to, give graphs whose traversals from the same root emit the
same names until their ends. The graphs have the same roots, and the search finds a cycle in both
or in neither. So taking repeated names out of the dependencies of a configuration does not change
the order of installation. -/
theorem order_of_sameSets :
    (∀ index index' : DependencyIndex, index.SameSets index' →
      (∀ root,
        Traversal.order (Graph.build index) root = Traversal.order (Graph.build index') root ∧
        (∃ t, Traversal.Emits (Traversal.start (Graph.build index) root)
          (Traversal.order (Graph.build index) root) t ∧ t.next = none) ∧
        ∃ t, Traversal.Emits (Traversal.start (Graph.build index') root)
          (Traversal.order (Graph.build index') root) t ∧ t.next = none) ∧
      (Graph.build index).roots = (Graph.build index').roots ∧
      ((Graph.build index).findCycle = none ↔ (Graph.build index').findCycle = none)) ∧
    ∀ (c : Config) (root : Option String), Traversal.order (Blueprint.ofConfig c).graph root =
      Traversal.order (Graph.build c.writtenDependencies) root := by
  refine ⟨fun index index' h => ?_, fun c root => c.dependencyIndex_sameSets.order_eq root⟩
  have hg := Graph.build_consistent index
  have hg' := Graph.build_consistent index'
  refine ⟨fun root => ⟨h.order_eq root, Traversal.order_ends hg root,
    Traversal.order_ends hg' root⟩, ?_, ?_⟩
  · exact Traversal.starts_congr h.alike none
  · exact h.alike.findCycle_eq_none_iff hg hg'

/-- An index with a repeated dependency, one on a name that nothing declares, and a cycle. -/
def DependencyIndex.wordy : DependencyIndex :=
  ⟨[("app", ["lib", "base", "lib", "ghost"]), ("base", []), ("lib", ["base"]),
    ("left", ["base", "right"]), ("right", ["left"])], by decide⟩

/-- The same sets of dependencies, with other repetitions and in another order. -/
def DependencyIndex.reworded : DependencyIndex :=
  ⟨[("app", ["ghost", "base", "lib"]), ("base", []), ("lib", ["base", "base"]),
    ("left", ["right", "base", "right"]), ("right", ["left"])], by decide⟩

/-- Repeating and rearranging dependencies does not change the sets. -/
theorem DependencyIndex.wordy_sameSets : wordy.SameSets reworded := by
  refine ⟨rfl, fun t d => ?_⟩
  simp only [wordy, reworded, Registry.get?, Registry.find]
  split_ifs <;> simp <;> tauto

/-- Two indexes that differ in repetitions, a dangling name and the order of dependencies: same
order, same roots, a cycle in both. -/
theorem order_of_sameSets_reworded :
    DependencyIndex.wordy.SameSets .reworded ∧
    Traversal.order (Graph.build .reworded) none = ["base", "lib", "app"] ∧
    Traversal.order (Graph.build .reworded) (some "left") = ["left", "right"] ∧
    (Graph.build .reworded).roots = ["base"] ∧
    (Graph.build .reworded).findCycle ≠ none := by
  have h := DependencyIndex.wordy_sameSets
  obtain ⟨horder, hroots, hcycle⟩ := order_of_sameSets.1 _ _ h
  refine ⟨h, ?_, ?_, ?_, ?_⟩
  · rw [← (horder none).1]
    decide
  · rw [← (horder (some "left")).1]
    decide
  · rw [← hroots]
    decide
  · rw [Ne, ← hcycle]
    decide

end Provision
