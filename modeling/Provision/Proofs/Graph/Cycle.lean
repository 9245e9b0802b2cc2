import Mathlib.Data.List.Chain
import Mathlib.Data.List.Nodup
import Mathlib.Logic.Relation
import Provision.Graph.Cycle

/-!
# The cycle search is sound and complete

The search runs over nodes that their edges never leave. Two facts carry it. The stack is a
path: each of its nodes is an edge of the one below, and none stands on it twice, so that an
edge back to the stack closes a cycle. And the nodes that are done form a `Settled` list:
all edges of each lead to nodes that were done before it, so that no cycle passes through one.

> `visit_holds`: a visit finds a cycle or settles its node, and leaves the stack alone;
> `findCycle_isCycle`: a path that is found is a cycle;
> `findCycle_eq_none_iff`: nothing is found exactly if there is no cycle.
-/

namespace Provision

/-! ## Cycles of a relation -/

/-- A path that leads from a node back to itself and meets no other node twice. -/
def IsCycle (r : String → String → Prop) (path : List String) : Prop :=
  ∃ node inner, path = node :: inner ++ [node] ∧ (node :: inner).Nodup ∧ path.IsChain r

/-- Whether something leads back to itself. -/
def Cyclic (r : String → String → Prop) : Prop := ∃ x, Relation.TransGen r x x

theorem IsCycle.cyclic {r : String → String → Prop} {path : List String}
    (h : IsCycle r path) : Cyclic r := by
  obtain ⟨node, inner, rfl, -, hchain⟩ := h
  refine ⟨node, ?_⟩
  cases inner with
  | nil => exact .single (by simpa using hchain)
  | cons next rest =>
    rw [List.cons_append, List.cons_append, List.isChain_cons_cons] at hchain
    exact .head' hchain.1 (List.relationReflTransGen_of_exists_isChain_cons _ hchain.2 (by simp))

/-- A chain of a relation without cycles meets no name twice. -/
theorem nodup_of_isChain {r : String → String → Prop} (hacyclic : ¬ Cyclic r) {l : List String}
    (h : l.IsChain r) : l.Nodup := by
  have htrans : IsTrans String (Relation.TransGen r) := ⟨fun _ _ _ hab hbc => hab.trans hbc⟩
  have hpairs : l.Pairwise (Relation.TransGen r) :=
    List.isChain_iff_pairwise.mp (h.imp fun _ _ hab => .single hab)
  refine hpairs.imp ?_
  rintro a _ hab rfl
  exact hacyclic ⟨a, hab⟩

/-- The relation that a search follows: the edges of the nodes. -/
def Follows (nodes : List String) (edges : String → List String) (x y : String) : Prop :=
  x ∈ nodes ∧ y ∈ edges x

namespace Search

variable {nodes : List String} {edges : String → List String}

/-! ## The nodes that are done -/

/-- Nodes that are done, the last one first: all edges of each lead to nodes after it. -/
inductive Settled (edges : String → List String) : List String → Prop
  | nil : Settled edges []
  | cons {x : String} {rest : List String} (fresh : x ∉ rest) (inside : ∀ y ∈ edges x, y ∈ rest)
      (settled : Settled edges rest) : Settled edges (x :: rest)

/-- Nodes that are settled lead to settled nodes only, so no cycle passes through them. -/
theorem Settled.closed {done : List String} (h : Settled edges done) :
    ∀ x ∈ done, ∀ y ∈ edges x, y ∈ done := by
  induction h with
  | nil => intro x hx; simp at hx
  | cons _ hin _ ih =>
    intro x hx y hy
    rcases List.mem_cons.mp hx with rfl | hx
    · exact List.mem_cons_of_mem _ (hin y hy)
    · exact List.mem_cons_of_mem _ (ih x hx y hy)

/-- All that can be reached from the node that was done last was done before it. -/
theorem Settled.reached {x y : String} {rest : List String} (h : Settled edges (x :: rest))
    (hxy : Relation.TransGen (Follows nodes edges) x y) : y ∈ rest := by
  obtain _ | ⟨_, hin, hrest⟩ := h
  induction hxy with
  | single hstep => exact hin _ hstep.2
  | tail _ hstep ih => exact hrest.closed _ ih _ hstep.2

/-- No cycle passes through a node that is done. -/
theorem Settled.irrefl {done : List String} (h : Settled edges done) :
    ∀ x ∈ done, ¬ Relation.TransGen (Follows nodes edges) x x := by
  induction h with
  | nil => intro x hx; simp at hx
  | cons hfresh hin hrest ih =>
    intro x hx hxx
    rcases List.mem_cons.mp hx with rfl | hx
    · exact hfresh ((Settled.cons hfresh hin hrest).reached hxx)
    · exact ih x hx hxx

/-! ## The stack -/

/-- The nodes on the stack, top first, form a path of edges from its bottom to its top. -/
structure OnStack (nodes : List String) (edges : String → List String) (stack : List String) :
    Prop where
  nodup : stack.Nodup
  mem : ∀ x ∈ stack, x ∈ nodes
  chain : stack.IsChain fun top below => top ∈ edges below

/-- No node is on the stack twice, so the depth of the search is bounded by the number of nodes.
-/
theorem OnStack.length_le {stack : List String} (h : OnStack nodes edges stack) :
    stack.length ≤ nodes.length :=
  h.nodup.length_le_of_subset h.mem

/-- An edge from the top of the stack to a node on it closes a cycle. -/
theorem closing_isCycle {stack : List String} {next : String} (h : OnStack nodes edges stack)
    (hnext : next ∈ stack) (hchain : (next :: stack).IsChain fun top below => top ∈ edges below) :
    IsCycle (Follows nodes edges) (closing stack next) := by
  obtain ⟨above, below, rfl⟩ := List.append_of_mem hnext
  have hdistinct : (next :: above).Nodup :=
    ((List.perm_middle.nodup_iff.mp h.nodup).sublist
      (List.Sublist.cons_cons _ (List.sublist_append_left _ _)))
  have hinner : (above ++ next :: below).takeWhile (· != next) = above := by
    rw [List.takeWhile_append_of_pos]
    · simp
    · intro x hx
      simpa using fun e : x = next => (List.nodup_cons.mp hdistinct).1 (e ▸ hx)
  have hpath : ((next :: above) ++ [next]).reverse.IsChain fun x y => y ∈ edges x := by
    rw [List.isChain_reverse]
    exact hchain.prefix ⟨below, by simp⟩
  refine ⟨next, above.reverse, by rw [closing, hinner], ?_, ?_⟩
  · rw [List.nodup_cons, List.mem_reverse, List.nodup_reverse]
    exact List.nodup_cons.mp hdistinct
  · rw [closing, hinner]
    refine List.IsChain.imp_of_mem_imp (fun x y hx _ hxy => ⟨?_, hxy⟩) (by simpa using hpath)
    exact h.mem x (by simp at hx ⊢; tauto)

/-! ## Visits -/

/-- What a search knows that started with some nodes done and has followed some edges from the
top of the stack: a cycle, or that the edges lead to settled nodes off the stack. -/
def Holds (nodes : List String) (edges : String → List String)
    (stack done followed : List String) : Search → Prop
  | .found path => IsCycle (Follows nodes edges) path
  | .clear done' => Settled edges done' ∧ (∀ x ∈ stack, x ∉ done') ∧
      (∀ x ∈ done, x ∈ done') ∧ ∀ x ∈ followed, x ∈ done'

/-- Following one edge. The visit only has to be right where it is called: at a node that is
neither on the stack nor done. -/
theorem follow_holds {stack done : List String} {visit : String → List String → Search}
    {next : String} (hstack : OnStack nodes edges stack) (hdone : Settled edges done)
    (hoff : ∀ x ∈ stack, x ∉ done)
    (hchain : (next :: stack).IsChain fun top below => top ∈ edges below)
    (hvisit : next ∉ stack → next ∉ done → Holds nodes edges stack done [next] (visit next done)) :
    Holds nodes edges stack done [next] (follow visit stack (.clear done) next) := by
  simp only [follow, List.contains_iff_mem]
  split
  next hon => exact closing_isCycle hstack hon hchain
  next hon =>
    split
    next hin => exact ⟨hdone, hoff, fun _ hx => hx, by simpa using hin⟩
    next hin => exact hvisit hon hin

/-- A cycle that is found stays found. -/
theorem foldl_follow_found (visit : String → List String → Search) (stack path l : List String) :
    l.foldl (follow visit stack) (.found path) = .found path := by
  induction l with
  | nil => rfl
  | cons _ _ ih => exact ih

/-- Following one edge after another. The induction is on the edges, with the nodes that are
done so far left open. -/
theorem foldl_follow_holds {stack : List String} {visit : String → List String → Search}
    (hstack : OnStack nodes edges stack) :
    ∀ (l : List String) {done : List String}, Settled edges done → (∀ x ∈ stack, x ∉ done) →
      (∀ next ∈ l, (next :: stack).IsChain fun top below => top ∈ edges below) →
      (∀ next ∈ l, ∀ done, Settled edges done → (∀ x ∈ stack, x ∉ done) → next ∉ stack →
        next ∉ done → Holds nodes edges stack done [next] (visit next done)) →
      Holds nodes edges stack done l (l.foldl (follow visit stack) (.clear done)) := by
  intro l
  induction l with
  | nil =>
    intro done hdone hoff _ _
    exact ⟨hdone, hoff, fun _ hx => hx, by simp⟩
  | cons next l ih =>
    intro done hdone hoff hchain hvisit
    have hstep := follow_holds hstack hdone hoff (hchain next (List.mem_cons_self ..))
      (hvisit next (List.mem_cons_self ..) done hdone hoff)
    rw [List.foldl_cons]
    cases hres : follow visit stack (.clear done) next with
    | found path =>
      rw [hres] at hstep
      rw [foldl_follow_found]
      exact hstep
    | clear done' =>
      rw [hres] at hstep
      obtain ⟨hdone', hoff', hkeep, hnext⟩ := hstep
      have hrest := ih hdone' hoff' (fun y hy => hchain y (List.mem_cons_of_mem _ hy))
        (fun y hy => hvisit y (List.mem_cons_of_mem _ hy))
      cases hfold : l.foldl (follow visit stack) (.clear done') with
      | found path => rw [hfold] at hrest; exact hrest
      | clear done'' =>
        rw [hfold] at hrest
        obtain ⟨hdone'', hoff'', hkeep', hl⟩ := hrest
        refine ⟨hdone'', hoff'', fun x hx => hkeep' x (hkeep x hx), ?_⟩
        intro x hx
        rcases List.mem_cons.mp hx with rfl | hx
        · exact hkeep' x (hnext x (List.mem_singleton_self x))
        · exact hl x hx

/-- **A visit finds a cycle or settles its node.** The induction is on the levels that are left:
they never run out, because the stack holds different nodes. -/
theorem visit_holds (hclosed : ∀ x ∈ nodes, ∀ y ∈ edges x, y ∈ nodes) :
    ∀ (fuel : Nat) {stack done : List String} {node : String},
      OnStack nodes edges (node :: stack) → nodes.length ≤ fuel + stack.length →
      Settled edges done → (∀ x ∈ node :: stack, x ∉ done) →
      Holds nodes edges stack done [node] (visit edges fuel stack node done) := by
  intro fuel
  induction fuel with
  | zero =>
    -- no level is left, but the stack holds fewer nodes than there are
    intro stack done node hstack hfuel _ _
    have := hstack.length_le
    simp only [List.length_cons] at this
    omega
  | succ fuel ih =>
    intro stack done node hstack hfuel hdone hoff
    have hnode := hstack.mem node (List.mem_cons_self ..)
    have hchain : ∀ next ∈ edges node,
        (next :: node :: stack).IsChain fun top below => top ∈ edges below :=
      fun next hnext => List.isChain_cons_cons.mpr ⟨hnext, hstack.chain⟩
    have hfold : Holds nodes edges (node :: stack) done (edges node)
        ((edges node).foldl (follow (visit edges fuel (node :: stack)) (node :: stack))
          (.clear done)) := by
      refine foldl_follow_holds hstack (edges node) hdone hoff hchain ?_
      intro next hnext done' hdone' hoff' hfresh hnew
      refine ih ⟨List.nodup_cons.mpr ⟨hfresh, hstack.nodup⟩, ?_, hchain next hnext⟩ ?_ hdone' ?_
      · intro x hx
        rcases List.mem_cons.mp hx with rfl | hx
        · exact hclosed node hnode x hnext
        · exact hstack.mem x hx
      · simp only [List.length_cons]
        omega
      · intro x hx
        rcases List.mem_cons.mp hx with rfl | hx
        · exact hnew
        · exact hoff' x hx
    rw [visit]
    cases hres : (edges node).foldl (follow (visit edges fuel (node :: stack)) (node :: stack))
        (.clear done) with
    | found path => rw [hres] at hfold; exact hfold
    | clear done' =>
      rw [hres] at hfold
      -- all edges lead to settled nodes, so that the node may be settled after them
      obtain ⟨hdone', hoff', hkeep, hall⟩ := hfold
      refine ⟨.cons (hoff' node (List.mem_cons_self ..)) hall hdone', ?_,
        fun x hx => List.mem_cons_of_mem _ (hkeep x hx), by simp⟩
      intro x hx hxd
      rcases List.mem_cons.mp hxd with rfl | hxd
      · exact (List.nodup_cons.mp hstack.nodup).1 hx
      · exact hoff' x (List.mem_cons_of_mem _ hx) hxd

/-- The whole search finds a cycle or settles all nodes. -/
theorem visitAll_holds (hclosed : ∀ x ∈ nodes, ∀ y ∈ edges x, y ∈ nodes) :
    Holds nodes edges [] [] nodes (visitAll edges nodes.length nodes) := by
  refine foldl_follow_holds ⟨List.nodup_nil, by simp, .nil⟩ nodes .nil (by simp)
    (fun _ _ => .singleton _) ?_
  intro next hnext done hdone _ _ hnew
  refine visit_holds hclosed nodes.length ⟨List.nodup_singleton _, ?_, .singleton _⟩
    (by simp) hdone (by simpa using hnew)
  intro x hx
  rwa [List.mem_singleton.mp hx]

end Search

/-! ## The search -/

variable {nodes : List String} {edges : String → List String}

/-- **Soundness.** A path that is found is a cycle. -/
theorem findCycle_isCycle (hclosed : ∀ x ∈ nodes, ∀ y ∈ edges x, y ∈ nodes)
    {path : List String} (h : findCycle nodes edges = some path) :
    IsCycle (Follows nodes edges) path := by
  have hall := Search.visitAll_holds hclosed
  unfold findCycle at h
  split at h
  next found hres =>
    rw [hres] at hall
    rw [← Option.some.inj h]
    exact hall
  next => simp at h

/-- **Completeness.** Nothing is found exactly if there is no cycle. -/
theorem findCycle_eq_none_iff (hclosed : ∀ x ∈ nodes, ∀ y ∈ edges x, y ∈ nodes) :
    findCycle nodes edges = none ↔ ¬ Cyclic (Follows nodes edges) := by
  constructor
  · rintro h ⟨x, hx⟩
    have hall := Search.visitAll_holds hclosed
    unfold findCycle at h
    split at h
    next => simp at h
    next done hres =>
      -- every node has been settled, and no cycle passes through a settled one
      rw [hres] at hall
      obtain ⟨hsettled, -, -, hnodes⟩ := hall
      obtain ⟨y, hstep, -⟩ := Relation.TransGen.head'_iff.mp hx
      exact hsettled.irrefl x (hnodes x hstep.1) hx
  · intro h
    cases hres : findCycle nodes edges with
    | none => rfl
    | some path => exact absurd (findCycle_isCycle hclosed hres).cyclic h

end Provision
