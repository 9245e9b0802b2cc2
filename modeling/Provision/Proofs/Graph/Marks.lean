import Mathlib.Data.List.Chain
import Mathlib.Data.List.Nodup
import Mathlib.Logic.Relation
import Provision.Graph.Cycle

/-!
# The marks and the stack of a search

`visit` hands its stack down and the nodes that are done back, so that neither can get out of step
with the visits. A search may as well keep one table of marks and one stack for all of its visits,
write into both when a visit begins and when it ends, and stop amid the visits as soon as a cycle
closes. `Progress` is how far such a search has come, and `step` what it does next.

That its marks and its stack can be relied on is an invariant (`Sound`). The nodes that are marked as
being visited are those on the stack, which is a path without repetitions; what is marked as done
leads to nothing else, and not back to itself. For a node to be done when its visit ends, it must be
known of all visits that are going on what has become of the edges that they have followed
(`Underway`).

> `step_cases`: everything that a step can do;
> `Sound.enter`, `Sound.finish`: what a visit does to the marks when it begins and when it ends;
> `step_invariant`, `advance_invariant`: a step keeps the invariant, and so does a search.
-/

namespace Provision.Search

/-- What is known of a node whose visit has begun. -/
inductive Mark
  /-- Its edges are being followed. -/
  | visiting
  /-- All of its edges have been followed. -/
  | done
deriving DecidableEq, Repr

/-- How far a search has come. -/
structure Progress where
  marks : Registry Mark
  /-- The nodes on the way to the present one, which is the last. -/
  stack : List String
  /-- The visits that are going on, the innermost first: the node of each, and the edges that it has
  still to follow. -/
  visits : List (String × List String)
  /-- The nodes that the search has still to look at. -/
  starts : List String
  /-- The nodes whose visits have begun, once for each visit. Nothing reads them. -/
  visited : List String
deriving DecidableEq

namespace Progress

variable {nodes : List String} {edges : String → List String} {p p' : Progress}

/-! ## Steps -/

/-- A search over some nodes that has not begun. -/
def fresh (nodes : List String) : Progress := ⟨∅, [], [], nodes, []⟩

/-- Begins the visit of a node. -/
def enter (edges : String → List String) (p : Progress) (node : String) : Progress :=
  { p with
    marks := p.marks.insert node .visiting
    stack := p.stack ++ [node]
    visits := (node, edges node) :: p.visits
    visited := p.visited ++ [node] }

/-- Ends the innermost visit, that of a node; the outer ones go on. -/
def finish (p : Progress) (node : String) (outer : List (String × List String)) : Progress :=
  { p with
    marks := p.marks.insert node .done
    stack := p.stack.dropLast
    visits := outer }

/-- The path that an edge back to a node closes: the stack from the place of the node on. For a node
that does not stand on the stack it is the whole stack. -/
def closing (p : Progress) (node : String) : List String :=
  p.stack.drop ((p.stack.idxOf? node).getD 0) ++ [node]

/-- What a search does next: it goes on, or ends with a cycle or without one. -/
def step (edges : String → List String) (p : Progress) : Progress ⊕ Option (List String) :=
  match p.visits with
  | [] =>
    match p.starts with
    | [] => .inr none
    | node :: starts =>
      if p.marks.contains node then .inl { p with starts := starts }
      else .inl ({ p with starts := starts }.enter edges node)
  | (node, []) :: outer => .inl (p.finish node outer)
  | (node, next :: rest) :: outer =>
    match p.marks.get? next with
    | some .visiting => .inr (some (p.closing next))
    | some .done => .inl { p with visits := (node, rest) :: outer }
    | none => .inl ({ p with visits := (node, rest) :: outer }.enter edges next)

/-- How far a search has come after so many steps, if it has not ended before. -/
def advance (edges : String → List String) : Nat → Progress → Progress
  | 0, p => p
  | k + 1, p =>
    match p.step edges with
    | .inl p' => advance edges k p'
    | .inr _ => p

/-! ## What the present visit has before it -/

/-- What is to be looked at next: the edges that the innermost visit has still to follow, or between
visits the nodes that are left. -/
def ahead (p : Progress) : List String :=
  match p.visits with
  | [] => p.starts
  | (_, rest) :: _ => rest

/-- The same search with other things to be looked at next. -/
def withAhead (p : Progress) (l : List String) : Progress :=
  match p.visits with
  | [] => { p with starts := l }
  | (node, _) :: outer => { p with visits := (node, l) :: outer }

/-- The names ahead belong to the innermost visit or, outside of visits, to the search itself. -/
theorem ahead_cases {l : List String} (h : p.ahead = l) :
    (p.visits = [] ∧ p.starts = l) ∨ ∃ node outer, p.visits = (node, l) :: outer := by
  rw [ahead] at h
  cases hv : p.visits with
  | nil => exact Or.inl ⟨rfl, by simpa [hv] using h⟩
  | cons visit outer => exact Or.inr ⟨visit.1, outer, by simp [← h, hv]⟩

@[simp] theorem ahead_withAhead (p : Progress) (l : List String) : (p.withAhead l).ahead = l := by
  cases hv : p.visits <;> simp [withAhead, ahead, hv]

@[simp] theorem withAhead_withAhead (p : Progress) (l l' : List String) :
    (p.withAhead l).withAhead l' = p.withAhead l' := by
  cases hv : p.visits <;> simp [withAhead, hv]

@[simp] theorem marks_withAhead (p : Progress) (l : List String) :
    (p.withAhead l).marks = p.marks := by
  cases hv : p.visits <;> simp [withAhead, hv]

@[simp] theorem stack_withAhead (p : Progress) (l : List String) :
    (p.withAhead l).stack = p.stack := by
  cases hv : p.visits <;> simp [withAhead, hv]

@[simp] theorem visited_withAhead (p : Progress) (l : List String) :
    (p.withAhead l).visited = p.visited := by
  cases hv : p.visits <;> simp [withAhead, hv]

@[simp] theorem names_withAhead (p : Progress) (l : List String) :
    (p.withAhead l).visits.map Prod.fst = p.visits.map Prod.fst := by
  cases hv : p.visits <;> simp [withAhead, hv]

/-- A node without a mark is entered. -/
theorem step_of_unmarked {next : String} {rest : List String} (h : p.ahead = next :: rest)
    (hnew : p.marks.get? next = none) :
    p.step edges = .inl ((p.withAhead rest).enter edges next) := by
  rcases ahead_cases h with ⟨hv, hs⟩ | ⟨node, outer, hv⟩
  · simp [step, withAhead, hv, hs, Registry.contains, hnew]
  · simp [step, withAhead, hv, hnew]

/-- A node that is done is passed over. -/
theorem step_of_done {next : String} {rest : List String} (h : p.ahead = next :: rest)
    (hdone : p.marks.get? next = some .done) : p.step edges = .inl (p.withAhead rest) := by
  rcases ahead_cases h with ⟨hv, hs⟩ | ⟨node, outer, hv⟩
  · simp [step, withAhead, hv, hs, Registry.contains, hdone]
  · simp [step, withAhead, hv, hdone]

/-- Everything that a step which goes on can do: it passes over a node, begins the visit of one, or
ends the innermost visit. Between visits any mark is enough for a node to be passed over. -/
theorem step_cases (h : p.step edges = .inl p') :
    (∃ next rest, p.ahead = next :: rest ∧
      (p.marks.get? next = some .done ∨ p.visits = [] ∧ p.marks.get? next ≠ none) ∧
      p' = p.withAhead rest) ∨
    (∃ next rest, p.ahead = next :: rest ∧ p.marks.get? next = none ∧
      p' = (p.withAhead rest).enter edges next) ∨
    ∃ node outer, p.visits = (node, []) :: outer ∧ p' = p.finish node outer := by
  rw [step] at h
  split at h
  next hv =>
    split at h
    next => simp at h
    next node starts hs =>
      split at h
      next hmarked =>
        refine Or.inl ⟨node, starts, by simp [ahead, hv, hs], Or.inr ⟨hv, ?_⟩, ?_⟩
        · exact Option.isSome_iff_ne_none.mp hmarked
        · simp [withAhead, hv, ← Sum.inl.inj h]
      next hnew =>
        refine Or.inr (Or.inl ⟨node, starts, by simp [ahead, hv, hs], ?_, ?_⟩)
        · simpa [Registry.contains] using hnew
        · simp [withAhead, hv, ← Sum.inl.inj h]
  next node outer hv => exact Or.inr (Or.inr ⟨node, outer, hv, (Sum.inl.inj h).symm⟩)
  next node next rest outer hv =>
    split at h
    next => simp at h
    next hdone =>
      refine Or.inl ⟨next, rest, by simp [ahead, hv], Or.inl hdone, ?_⟩
      simp [withAhead, hv, ← Sum.inl.inj h]
    next hnew =>
      refine Or.inr (Or.inl ⟨next, rest, by simp [ahead, hv], hnew, ?_⟩)
      simp [withAhead, hv, ← Sum.inl.inj h]

/-! ## The marks -/

/-- Entering a node marks it and no other. -/
theorem get?_enter (p : Progress) (node n : String) :
    (p.enter edges node).marks.get? n =
      if n = node then some .visiting else p.marks.get? n :=
  Registry.get?_insert ..

/-- Leaving a node marks it as done and no other. -/
theorem get?_finish (p : Progress) (node n : String) (outer : List (String × List String)) :
    (p.finish node outer).marks.get? n = if n = node then some .done else p.marks.get? n :=
  Registry.get?_insert ..

/-- Whether all edges of a node have been followed. -/
def Done (p : Progress) (n : String) : Prop := p.marks.get? n = some .done

/-- A visit that begins makes nothing done. -/
theorem done_enter_iff {next : String} (hnew : p.marks.get? next = none) (n : String) :
    (p.enter edges next).Done n ↔ p.Done n := by
  rw [Done, Done, get?_enter]
  by_cases hn : n = next
  · simp [hn, hnew]
  · rw [if_neg hn]

/-- A visit that ends makes its node done. -/
theorem done_finish_iff (node n : String) (outer : List (String × List String)) :
    (p.finish node outer).Done n ↔ n = node ∨ p.Done n := by
  rw [Done, Done, get?_finish]
  by_cases hn : n = node <;> simp [hn]

/-! ## What holds between the steps -/

/-- The state of a search whose marks and stack tell the truth. -/
structure Sound (nodes : List String) (edges : String → List String) (p : Progress) : Prop where
  stack_nodup : p.stack.Nodup
  stack_mem : ∀ n ∈ p.stack, n ∈ nodes
  /-- Each entry of the stack has an edge to the next one. -/
  stack_chain : p.stack.IsChain fun x y => y ∈ edges x
  visiting_iff : ∀ n, p.marks.get? n = some .visiting ↔ n ∈ p.stack
  done_closed : ∀ n, p.Done n → ∀ d ∈ edges n, p.Done d
  done_acyclic : ∀ n, p.Done n → ¬ Relation.TransGen (fun x y => y ∈ edges x) n n
  /-- The visits that are going on are those of the nodes on the stack. -/
  visits_names : p.visits.map Prod.fst = p.stack.reverse
  visited_nodup : p.visited.Nodup
  visited_iff : ∀ n, n ∈ p.visited ↔ p.marks.get? n ≠ none

/-- Dropping names that are ahead does not touch what the marks say. -/
theorem Sound.withAhead (h : Sound nodes edges p) (l : List String) :
    Sound nodes edges (p.withAhead l) := by
  constructor <;> simp only [Done, marks_withAhead, stack_withAhead, visited_withAhead,
    names_withAhead]
  · exact h.stack_nodup
  · exact h.stack_mem
  · exact h.stack_chain
  · exact h.visiting_iff
  · exact h.done_closed
  · exact h.done_acyclic
  · exact h.visits_names
  · exact h.visited_nodup
  · exact h.visited_iff

/-- A node without a mark is not on the stack. -/
theorem Sound.notMem_stack (h : Sound nodes edges p) {n : String} (hn : p.marks.get? n = none) :
    n ∉ p.stack := by
  intro hmem
  rw [← h.visiting_iff, hn] at hmem
  simp at hmem

/-- Between visits nothing is being visited. -/
theorem Sound.done_of_marked (h : Sound nodes edges p) (hv : p.visits = []) {n : String}
    (hn : p.marks.get? n ≠ none) : p.Done n := by
  have hstack : p.stack = [] := by simpa [hv] using h.visits_names
  have hoff := h.visiting_iff n
  rw [hstack] at hoff
  rw [Done]
  cases hmark : p.marks.get? n with
  | none => exact absurd hmark hn
  | some mark =>
    cases mark with
    | visiting => exact absurd (hoff.mp hmark) List.not_mem_nil
    | done => rfl

/-- The node of the innermost visit is on top of the stack. -/
theorem Sound.stack_eq (h : Sound nodes edges p) {node : String} {left : List String}
    {outer : List (String × List String)} (hv : p.visits = (node, left) :: outer) :
    p.stack = (outer.map Prod.fst).reverse ++ [node] := by
  have hnames := h.visits_names
  rwa [hv, List.map_cons, eq_comm, List.reverse_eq_iff, List.reverse_cons] at hnames

/-- What is done leads to nothing else. -/
theorem Sound.done_of_reflTransGen (h : Sound nodes edges p) {n d : String} (hn : p.Done n)
    (hnd : Relation.ReflTransGen (fun x y => y ∈ edges x) n d) : p.Done d := by
  induction hnd with
  | refl => exact hn
  | tail _ hstep ih => exact h.done_closed _ ih _ hstep

/-- The visit of a node begins that has no mark, over an edge from the top of the stack. -/
theorem Sound.enter (h : Sound nodes edges p) {next : String} (hmem : next ∈ nodes)
    (hnew : p.marks.get? next = none) (hedge : ∀ top ∈ p.stack.getLast?, next ∈ edges top) :
    Sound nodes edges (p.enter edges next) := by
  have hoff : next ∉ p.stack := h.notMem_stack hnew
  have hunvisited : next ∉ p.visited := fun hv => (h.visited_iff next).mp hv hnew
  refine ⟨?_, ?_, ?_, fun n => ?_, fun n hn d hd => ?_, fun n hn => ?_, ?_, ?_, fun n => ?_⟩
  · show (p.stack ++ [next]).Nodup
    exact (List.perm_append_singleton next p.stack).nodup_iff.mpr
      (List.nodup_cons.mpr ⟨hoff, h.stack_nodup⟩)
  · intro n hn
    rcases List.mem_append.mp hn with hn | hn
    · exact h.stack_mem n hn
    · rwa [List.mem_singleton.mp hn]
  · show (p.stack ++ [next]).IsChain _
    rw [List.isChain_append]
    exact ⟨h.stack_chain, .singleton _, by simpa using hedge⟩
  · rw [get?_enter, Progress.enter, List.mem_append, List.mem_singleton]
    by_cases hn : n = next
    · simp [hn]
    · simp [hn, h.visiting_iff]
  · rw [done_enter_iff hnew] at hn ⊢
    exact h.done_closed n hn d hd
  · exact h.done_acyclic n ((done_enter_iff hnew n).mp hn)
  · simp [Progress.enter, h.visits_names]
  · show (p.visited ++ [next]).Nodup
    exact (List.perm_append_singleton next p.visited).nodup_iff.mpr
      (List.nodup_cons.mpr ⟨hunvisited, h.visited_nodup⟩)
  · rw [get?_enter, Progress.enter, List.mem_append, List.mem_singleton, h.visited_iff]
    by_cases hn : n = next <;> simp [hn]

/-- The innermost visit ends, once all edges of its node lead to nodes that are done. -/
theorem Sound.finish (h : Sound nodes edges p) {node : String} {left : List String}
    {outer : List (String × List String)} (hv : p.visits = (node, left) :: outer)
    (hall : ∀ d ∈ edges node, p.Done d) : Sound nodes edges (p.finish node outer) := by
  have hstack := h.stack_eq hv
  have hbelow : (p.finish node outer).stack = (outer.map Prod.fst).reverse := by
    simp [Progress.finish, hstack]
  have hbegins : (p.finish node outer).stack <+: p.stack := p.stack.dropLast_prefix
  have hnodup := h.stack_nodup
  rw [hstack, (List.perm_append_singleton _ _).nodup_iff, List.nodup_cons, ← hbelow] at hnodup
  have hvisiting : p.marks.get? node = some .visiting := by
    rw [h.visiting_iff, hstack]
    simp
  refine ⟨hnodup.2, fun n hn => h.stack_mem n (hbegins.subset hn), h.stack_chain.prefix hbegins,
    fun n => ?_, fun n hn d hd => ?_, fun n hn => ?_, ?_, h.visited_nodup, fun n => ?_⟩
  · rw [get?_finish]
    by_cases hn : n = node
    · simp [hn, hnodup.1]
    · rw [if_neg hn, h.visiting_iff, hbelow, hstack]
      simp [hn]
  · rw [done_finish_iff] at hn ⊢
    rcases hn with rfl | hn
    · exact Or.inr (hall d hd)
    · exact Or.inr (h.done_closed n hn d hd)
  · rcases (done_finish_iff node n outer).mp hn with rfl | hn
    · -- what the node leads to is done, and the node itself is not
      intro hcycle
      obtain ⟨d, hd, hback⟩ := Relation.TransGen.head'_iff.mp hcycle
      have hdone := h.done_of_reflTransGen (hall d hd) hback
      rw [Done, hvisiting] at hdone
      simp at hdone
    · exact h.done_acyclic n hn
  · rw [hbelow, List.reverse_reverse]
    rfl
  · rw [get?_finish]
    show n ∈ p.visited ↔ _
    rw [h.visited_iff]
    by_cases hn : n = node
    · simp [hn, hvisiting]
    · rw [if_neg hn]

/-! ## The edges that have been followed -/

/-- What has become of the edges of the nodes that are being visited, the innermost visit first. Each
has still to be followed, or leads to the node of a visit further inside, or to one that is done. -/
inductive Underway (edges : String → List String) (done : String → Prop) :
    List String → List (String × List String) → Prop
  | nil {inside : List String} : Underway edges done inside []
  | cons {inside rest : List String} {node : String} {outer : List (String × List String)}
      (before : ∀ d ∈ rest, d ∈ edges node)
      (behind : ∀ d ∈ edges node, d ∈ rest ∨ d ∈ inside ∨ done d)
      (outside : Underway edges done (node :: inside) outer) :
      Underway edges done inside ((node, rest) :: outer)

/-- More may become done, above all a node whose visit has ended. -/
theorem Underway.mono {done done' : String → Prop} {inside : List String}
    {visits : List (String × List String)} (h : Underway edges done inside visits)
    (hdone : ∀ d, done d → done' d) : ∀ {inside' : List String},
      (∀ d ∈ inside, d ∈ inside' ∨ done' d) → Underway edges done' inside' visits := by
  induction h with
  | nil => exact fun _ => .nil
  | @cons inside rest node outer hbefore hbehind _ ih =>
    intro inside' hinside
    refine .cons hbefore (fun d hd => ?_) (ih fun d hd => ?_)
    · rcases hbehind d hd with hd | hd | hd
      · exact Or.inl hd
      · exact Or.inr (hinside d hd)
      · exact Or.inr (Or.inr (hdone d hd))
    · rcases List.mem_cons.mp hd with rfl | hd
      · exact Or.inl (List.mem_cons_self ..)
      · exact (hinside d hd).imp_left (List.mem_cons_of_mem _)

/-- An edge may be struck off that leads to the node of a visit inside or to one that is done. -/
theorem Underway.withAhead {done done' : String → Prop} {inside rest : List String} {next : String}
    (h : Underway edges done [] p.visits) (hahead : p.ahead = next :: rest)
    (hdone : ∀ d, done d → done' d) (hnext : next ∈ inside ∨ done' next) :
    Underway edges done' inside (p.withAhead rest).visits := by
  have hmono : Underway edges done' inside p.visits := h.mono hdone (by simp)
  rw [Progress.withAhead]
  rcases ahead_cases hahead with ⟨hv, -⟩ | ⟨node, outer, hv⟩
  · simpa [hv] using Underway.nil
  · rw [hv] at hmono ⊢
    obtain _ | ⟨hbefore, hbehind, houtside⟩ := hmono
    refine .cons (fun d hd => hbefore d (List.mem_cons_of_mem _ hd)) (fun d hd => ?_) houtside
    rcases hbehind d hd with hrest | hother
    · rcases List.mem_cons.mp hrest with rfl | hrest
      · exact Or.inr hnext
      · exact Or.inl hrest
    · exact Or.inr hother

/-! ## The invariant -/

/-- What a search keeps from step to step. -/
structure Invariant (nodes : List String) (edges : String → List String) (p : Progress) :
    Prop where
  sound : Sound nodes edges p
  starts_mem : ∀ n ∈ p.starts, n ∈ nodes
  underway : Underway edges p.Done [] p.visits

theorem fresh_unmarked (nodes : List String) (n : String) : (fresh nodes).marks.get? n = none := rfl

/-- The search starts with the invariant: nothing is marked and nothing is on the stack. -/
theorem fresh_invariant (nodes : List String) (edges : String → List String) :
    Invariant nodes edges (fresh nodes) := by
  have hnone := fresh_unmarked nodes
  have hstack : (fresh nodes).stack = [] := rfl
  have hvisited : (fresh nodes).visited = [] := rfl
  refine ⟨⟨List.nodup_nil, by simp [hstack], .nil, ?_, ?_, ?_, rfl, List.nodup_nil, ?_⟩,
    fun n hn => hn, .nil⟩
  · simp [hnone, hstack]
  · simp [Done, hnone]
  · simp [Done, hnone]
  · simp [hnone, hvisited]

/-- What is looked at next is a node, and an edge leads to it from the top of the stack. -/
theorem Invariant.next_mem (hclosed : ∀ x ∈ nodes, ∀ y ∈ edges x, y ∈ nodes)
    (h : Invariant nodes edges p) {next : String} {rest : List String}
    (hahead : p.ahead = next :: rest) :
    next ∈ nodes ∧ ∀ top ∈ p.stack.getLast?, next ∈ edges top := by
  rcases ahead_cases hahead with ⟨hv, hs⟩ | ⟨node, outer, hv⟩
  · have hstack : p.stack = [] := by simpa [hv] using h.sound.visits_names
    exact ⟨h.starts_mem next (by simp [hs]), by simp [hstack]⟩
  · have hunder := h.underway
    rw [hv] at hunder
    obtain _ | ⟨hbefore, -, -⟩ := hunder
    have hedge := hbefore next (List.mem_cons_self ..)
    have hstack := h.sound.stack_eq hv
    refine ⟨hclosed node (h.sound.stack_mem node (by simp [hstack])) next hedge, ?_⟩
    simpa [hstack] using hedge

/-- What has still to be looked at between visits are nodes. -/
theorem Invariant.starts_withAhead (h : Invariant nodes edges p) {next : String}
    {rest : List String} (hahead : p.ahead = next :: rest) :
    ∀ n ∈ (p.withAhead rest).starts, n ∈ nodes := by
  intro n hn
  refine h.starts_mem n ?_
  rw [withAhead] at hn
  rcases ahead_cases hahead with ⟨hv, hs⟩ | ⟨node, outer, hv⟩
  · rw [hv] at hn
    rw [hs]
    exact List.mem_cons_of_mem _ hn
  · rwa [hv] at hn

/-- **A step keeps the invariant.** -/
theorem step_invariant (hclosed : ∀ x ∈ nodes, ∀ y ∈ edges x, y ∈ nodes)
    (h : Invariant nodes edges p) (hstep : p.step edges = .inl p') :
    Invariant nodes edges p' := by
  rcases step_cases hstep with ⟨next, rest, hahead, hpass, rfl⟩ | ⟨next, rest, hahead, hnew, rfl⟩ |
    ⟨node, outer, hv, rfl⟩
  · have hdone : ∀ d, p.Done d → (p.withAhead rest).Done d := by simp [Done]
    have hnext : p.Done next :=
      hpass.elim id fun hmarked => h.sound.done_of_marked hmarked.1 hmarked.2
    exact ⟨h.sound.withAhead rest, h.starts_withAhead hahead,
      h.underway.withAhead hahead hdone (Or.inr (hdone next hnext))⟩
  · -- the edge that is followed leads to the visit that begins
    obtain ⟨hmem, hedge⟩ := h.next_mem hclosed hahead
    have hdone : ∀ d, p.Done d → ((p.withAhead rest).enter edges next).Done d := by
      intro d hd
      rw [done_enter_iff (by simpa using hnew)]
      simpa [Done] using hd
    refine ⟨(h.sound.withAhead rest).enter hmem (by simpa using hnew) (by simpa using hedge),
      h.starts_withAhead hahead, .cons (fun d hd => hd) (fun d hd => Or.inl hd) ?_⟩
    exact h.underway.withAhead hahead hdone (Or.inl (List.mem_singleton_self next))
  · have hunder := h.underway
    rw [hv] at hunder
    obtain _ | ⟨-, hbehind, houtside⟩ := hunder
    have hall : ∀ d ∈ edges node, p.Done d := by
      intro d hd
      simpa using hbehind d hd
    refine ⟨h.sound.finish hv hall, h.starts_mem, houtside.mono (fun d hd => ?_) fun d hd => ?_⟩
    · exact (done_finish_iff node d outer).mpr (Or.inr hd)
    · exact Or.inr ((done_finish_iff node d outer).mpr (Or.inl (List.mem_singleton.mp hd)))

/-- **A search keeps the invariant**, however far it has come. -/
theorem advance_invariant (hclosed : ∀ x ∈ nodes, ∀ y ∈ edges x, y ∈ nodes) :
    ∀ (k : Nat) {p : Progress}, Invariant nodes edges p →
      Invariant nodes edges (advance edges k p) := by
  intro k
  induction k with
  | zero => exact fun h => h
  | succ k ih =>
    intro p h
    rw [advance]
    cases hstep : p.step edges with
    | inl p' => exact ih (step_invariant hclosed h hstep)
    | inr _ => exact h

end Progress

end Provision.Search
