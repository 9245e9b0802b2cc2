import Provision.Proofs.Distinct
import Provision.Proofs.Graph.Marks
import Provision.Proofs.Graph.Search

/-!
# A search with marks ends like the recursive one

The recursive search is the relation `Explores`, whose stack has its top first and whose nodes that
are done are a list. A search with marks stands where it does (`Mirrors`) if its marks and its stack
say the same. From there it comes step by step to the end of what the recursive one does, a visit
inside of another one included (`Completes`): it begins the visit, does what the visit does, and ends
it in the place where it began it. So it ends, with the same result.

> `explores_completes`: the search with marks does what the recursive one does;
> `reaches_findCycle`: it ends with the result of `findCycle`;
> `advance_sound`: what holds however far it has come.
-/

namespace Provision.Search.Progress

variable {nodes : List String} {edges : String → List String} {p p' : Progress}

/-! ## From step to step -/

/-- Whether a search comes from one state to another, step by step. -/
def Reaches (edges : String → List String) : Progress → Progress → Prop :=
  Relation.ReflTransGen fun p p' => p.step edges = .inl p'

/-- What is reached is reached after some number of steps. -/
theorem Reaches.exists_advance (h : Reaches edges p p') : ∃ k, advance edges k p = p' := by
  induction h using Relation.ReflTransGen.head_induction_on with
  | refl => exact ⟨0, rfl⟩
  | head hstep _ ih =>
    obtain ⟨k, hk⟩ := ih
    exact ⟨k + 1, by rw [advance, hstep]; exact hk⟩

/-! ## The place of a search -/

/-- The same place in a search, with other marks and another record of its visits. -/
def withMarks (p : Progress) (marks : Registry Mark) (visited : List String) : Progress :=
  { p with marks := marks, visited := visited }

@[simp] theorem withMarks_withMarks (p : Progress) (m m' : Registry Mark) (v v' : List String) :
    (p.withMarks m v).withMarks m' v' = p.withMarks m' v' := rfl

@[simp] theorem withAhead_withMarks (p : Progress) (m : Registry Mark) (v l : List String) :
    (p.withMarks m v).withAhead l = (p.withAhead l).withMarks m v := by
  cases hv : p.visits <;> simp [withMarks, withAhead, hv]

@[simp] theorem ahead_withMarks (p : Progress) (m : Registry Mark) (v : List String) :
    (p.withMarks m v).ahead = p.ahead := rfl

theorem withAhead_of_ahead {l : List String} (h : p.ahead = l) : p.withAhead l = p := by
  obtain ⟨marks, stack, visits, starts, visited⟩ := p
  subst h
  cases visits <;> rfl

/-- When all edges of a node have been followed, its visit leaves the search where it began. -/
theorem step_enter (p : Progress) (next : String) (m : Registry Mark) (v : List String) :
    (((p.enter edges next).withAhead []).withMarks m v).step edges =
      .inl (p.withMarks (m.insert next .done) v) := by
  simp [step, Progress.enter, Progress.withAhead, withMarks, Progress.finish]

/-- Whether a search stands where the recursive one does, with a stack and nodes that are done. -/
structure Mirrors (stack done : List String) (p : Progress) : Prop where
  stack_eq : p.stack = stack.reverse
  names_eq : p.visits.map Prod.fst = stack
  visiting_iff : ∀ n, p.marks.get? n = some .visiting ↔ n ∈ stack
  done_iff : ∀ n, p.Done n ↔ n ∈ done

namespace Mirrors

variable {stack done : List String}

/-- The names ahead are not part of the mirror. -/
theorem withAhead (h : Mirrors stack done p) (l : List String) :
    Mirrors stack done (p.withAhead l) :=
  ⟨by simpa using h.stack_eq, by simpa using h.names_eq, by simpa using h.visiting_iff,
    by simpa [Done] using h.done_iff⟩

/-- A node off the stack that is not done has no mark. -/
theorem unmarked (h : Mirrors stack done p) {n : String} (hoff : n ∉ stack) (hfresh : n ∉ done) :
    p.marks.get? n = none := by
  cases hmark : p.marks.get? n with
  | none => rfl
  | some mark =>
    cases mark with
    | visiting => exact absurd ((h.visiting_iff n).mp hmark) hoff
    | done => exact absurd ((h.done_iff n).mp hmark) hfresh

/-- Entering a node pushes it onto the stack. -/
theorem enter (h : Mirrors stack done p) {next : String} (hnew : p.marks.get? next = none) :
    Mirrors (next :: stack) done (p.enter edges next) := by
  refine ⟨?_, ?_, fun n => ?_, fun n => ?_⟩
  · simp [Progress.enter, h.stack_eq]
  · simp [Progress.enter, h.names_eq]
  · rw [get?_enter, List.mem_cons]
    by_cases hn : n = next
    · simp [hn]
    · simp [hn, h.visiting_iff]
  · rw [done_enter_iff hnew, h.done_iff]

/-- After a visit the stack is what it was, and the node is done. -/
theorem finish (h : Mirrors stack done p) {next : String} (hoff : next ∉ stack)
    {m : Registry Mark} {v done' : List String}
    (hinside : Mirrors (next :: stack) done' (((p.enter edges next).withAhead []).withMarks m v)) :
    Mirrors stack (next :: done') (p.withMarks (m.insert next .done) v) := by
  have hmark : ∀ n, (p.withMarks (m.insert next .done) v).marks.get? n =
      if n = next then some .done else m.get? n := fun n => Registry.get?_insert ..
  refine ⟨h.stack_eq, h.names_eq, fun n => ?_, fun n => ?_⟩
  · have hvisiting : m.get? n = some .visiting ↔ n ∈ next :: stack := hinside.visiting_iff n
    rw [hmark]
    by_cases hn : n = next
    · simp [hn, hoff]
    · simp [hn, hvisiting]
  · have hdone : m.get? n = some .done ↔ n ∈ done' := hinside.done_iff n
    rw [Done, hmark]
    by_cases hn : n = next
    · simp [hn]
    · simp [hn, hdone]

end Mirrors

/-! ## Visits inside of visits -/

/-- The place of the first occurrence of a name. -/
theorem idxOf?_append_cons {n : String} {before : List String} (h : n ∉ before)
    (later : List String) : (before ++ n :: later).idxOf? n = some before.length := by
  induction before with
  | nil => simp [List.idxOf?_cons]
  | cons x before ih =>
    rw [List.mem_cons, not_or] at h
    rw [List.cons_append, List.idxOf?_cons, ih h.2]
    simp [Ne.symm h.1]

/-- Where the node stands on the stack, both searches close the same cycle. -/
theorem closing_eq {stack : List String} (hstack : p.stack = stack.reverse) (hnodup : stack.Nodup)
    {next : String} (hnext : next ∈ stack) : p.closing next = Search.closing stack next := by
  obtain ⟨above, below, rfl⟩ := List.append_of_mem hnext
  rw [List.perm_middle.nodup_iff, List.nodup_cons, List.mem_append, not_or] at hnodup
  have hinner : (above ++ next :: below).takeWhile (· != next) = above :=
    takeWhile_ne_append hnodup.1.1 below
  have hplace : p.stack.idxOf? next = some below.reverse.length := by
    rw [hstack, List.reverse_append, List.reverse_cons, List.append_assoc, List.singleton_append]
    exact idxOf?_append_cons (by simpa using hnodup.1.2) _
  rw [Progress.closing, hplace, Search.closing, hinner, hstack]
  simp

/-- What it is for a search to come from a state, in which it has a stack, to the end of what is
ahead there. -/
def Completes (edges : String → List String) (p : Progress) (stack : List String) : Search → Prop
  | .found path => ∃ p', Reaches edges p p' ∧ p'.step edges = .inr (some path)
  | .clear done => ∃ m v, Reaches edges p ((p.withAhead []).withMarks m v) ∧
      Mirrors stack done ((p.withAhead []).withMarks m v)

/-- A step may be put in front, which leaves the place as it is. -/
theorem Completes.head {stack : List String} {s : Search} {q : Progress} {m : Registry Mark}
    {v : List String} (hreach : Reaches edges p q)
    (hplace : q.withAhead [] = (p.withAhead []).withMarks m v) (h : Completes edges q stack s) :
    Completes edges p stack s := by
  cases s with
  | found path =>
    obtain ⟨p', hp', hend⟩ := h
    exact ⟨p', hreach.trans hp', hend⟩
  | clear done =>
    obtain ⟨m', v', hq, hmirrors⟩ := h
    rw [hplace, withMarks_withMarks] at hq hmirrors
    exact ⟨m', v', hreach.trans hq, hmirrors⟩

/-- **The search with marks does what the recursive one does.** The induction is on the latter; a
visit is its steps inside, with one to begin and one to end it. -/
theorem explores_completes {stack nexts : List String} {s t : Search}
    (h : Explores edges stack nexts s t) : ∀ {done : List String} {p : Progress},
      s = .clear done → stack.Nodup → Mirrors stack done p → p.ahead = nexts →
        Completes edges p stack t := by
  induction h with
  | found =>
    intro done p hs
    simp at hs
  | nil =>
    intro done p hs _ hmirrors hahead
    obtain rfl := Search.clear.inj hs
    refine ⟨p.marks, p.visited, ?_⟩
    rw [withAhead_of_ahead hahead]
    exact ⟨.refl, hmirrors⟩
  | @back stack nexts _ next hon =>
    intro done p _ hnodup hmirrors hahead
    refine ⟨p, .refl, ?_⟩
    rw [← closing_eq hmirrors.stack_eq hnodup hon]
    have hmark : p.marks.get? next = some .visiting := (hmirrors.visiting_iff next).mpr hon
    rcases ahead_cases hahead with ⟨hv, -⟩ | ⟨node, outer, hv⟩
    · -- with something on the stack a visit is going on
      rw [← hmirrors.names_eq, hv] at hon
      simp at hon
    · simp [step, hv, hmark]
  | @pass stack nexts _ next t hoff hold _ ih =>
    intro done p hs hnodup hmirrors hahead
    obtain rfl := Search.clear.inj hs
    have hstep : p.step edges = .inl (p.withAhead nexts) :=
      step_of_done hahead ((hmirrors.done_iff next).mpr hold)
    have hrest := ih rfl hnodup (hmirrors.withAhead nexts) (ahead_withAhead p nexts)
    exact hrest.head (.single hstep) (withAhead_withAhead p nexts [])
  | @down stack nexts _ next below t hoff hfresh _ hrest ihvisit ihrest =>
    intro done p hs hnodup hmirrors hahead
    obtain rfl := Search.clear.inj hs
    have hnew : p.marks.get? next = none := hmirrors.unmarked hoff hfresh
    have hstep : p.step edges = .inl ((p.withAhead nexts).enter edges next) :=
      step_of_unmarked hahead hnew
    have hinside := ihvisit rfl (List.nodup_cons.mpr ⟨hoff, hnodup⟩)
      ((hmirrors.withAhead nexts).enter (by simpa using hnew)) rfl
    cases below with
    | found path =>
      obtain rfl : t = .found path := by
        cases hrest
        rfl
      obtain ⟨p', hreach, hend⟩ := hinside
      exact ⟨p', .head hstep hreach, hend⟩
    | clear done' =>
      obtain ⟨m, v, hreach, hmirrors'⟩ := hinside
      have hback : Reaches edges p ((p.withAhead nexts).withMarks (m.insert next .done) v) :=
        .tail (.head hstep hreach) (step_enter (p.withAhead nexts) next m v)
      have hafter := ihrest rfl hnodup ((hmirrors.withAhead nexts).finish hoff hmirrors')
        (by rw [ahead_withMarks, ahead_withAhead])
      exact hafter.head (m := m.insert next .done) (v := v) hback (by simp)

/-! ## The whole search -/

/-- **The search ends**, with the result of the recursive one. -/
theorem reaches_findCycle (hclosed : ∀ x ∈ nodes, ∀ y ∈ edges x, y ∈ nodes) :
    ∃ p, Reaches edges (fresh nodes) p ∧ p.step edges = .inr (findCycle nodes edges) := by
  have hmirrors : Mirrors [] [] (fresh nodes) :=
    ⟨rfl, rfl, fun n => by simp [fresh_unmarked], fun n => by simp [Done, fresh_unmarked]⟩
  have hends := explores_completes (visitAll_explores hclosed (Nat.le_refl nodes.length)) rfl
    List.nodup_nil hmirrors rfl
  rw [findCycle]
  cases hres : visitAll edges nodes.length nodes with
  | found path =>
    rw [hres] at hends
    exact hends
  | clear done =>
    rw [hres] at hends
    obtain ⟨m, v, hreach, -⟩ := hends
    exact ⟨_, hreach, rfl⟩

/-- **A search with marks keeps its books right.** On nodes that their edges never leave, whatever
else the edges do, and however far the search has come: the stack holds no node twice, and each of
its entries has an edge to the next one; marked as being visited are the nodes on the stack and no
others; all edges of a node that is done lead to nodes that are done, and no cycle passes through it.
When an edge is followed to a node that is being visited, the node stands on the stack. No node has
been visited twice, and there are never more visits inside of each other than there are nodes. The
search ends, with the result of `findCycle`. -/
theorem advance_sound (nodes : List String) (edges : String → List String)
    (hclosed : ∀ x ∈ nodes, ∀ y ∈ edges x, y ∈ nodes) :
    (∃ k, (advance edges k (fresh nodes)).step edges = .inr (findCycle nodes edges)) ∧
    ∀ k, let p := advance edges k (fresh nodes)
      Sound nodes edges p ∧
      (∀ node next rest outer, p.visits = (node, next :: rest) :: outer →
        p.marks.get? next = some .visiting → (p.stack.idxOf? next).isSome) ∧
      p.visits.length ≤ nodes.eraseDups.length := by
  refine ⟨?_, fun k => ?_⟩
  · obtain ⟨p, hreach, hend⟩ := reaches_findCycle hclosed
    obtain ⟨k, rfl⟩ := hreach.exists_advance
    exact ⟨k, hend⟩
  · have hsound := (advance_invariant hclosed k (fresh_invariant nodes edges)).sound
    refine ⟨hsound, fun node next rest outer _ hmark => ?_, ?_⟩
    · exact List.isSome_idxOf?.mpr ((hsound.visiting_iff next).mp hmark)
    · have hlength := congrArg List.length hsound.visits_names
      rw [List.length_map, List.length_reverse] at hlength
      rw [hlength]
      refine hsound.stack_nodup.length_le_of_subset fun n hn => ?_
      exact List.mem_eraseDups.mpr (hsound.stack_mem n hn)

/-- Before an edge closes the cycle one node is done, and three are being visited. -/
theorem advance_sound_entered :
    let p := advance Graph.entered.dependenciesOf 6 (fresh Graph.entered.nodes)
    (∀ x ∈ Graph.entered.nodes, ∀ y ∈ Graph.entered.dependenciesOf x, y ∈ Graph.entered.nodes) ∧
    p.visits = [("right", ["left", "self"]), ("left", []), ("start", ["left"])] ∧
    p.marks.get? "left" = some .visiting ∧ p.marks.get? "base" = some .done ∧
    Sound Graph.entered.nodes Graph.entered.dependenciesOf p ∧
    (p.stack.idxOf? "left").isSome ∧ p.visits.length ≤ Graph.entered.nodes.eraseDups.length ∧
    p.step Graph.entered.dependenciesOf = .inr (some ["left", "right", "left"]) := by
  intro p
  have hclosed : ∀ x ∈ Graph.entered.nodes, ∀ y ∈ Graph.entered.dependenciesOf x,
      y ∈ Graph.entered.nodes := by
    decide
  have hvisits : p.visits = [("right", ["left", "self"]), ("left", []), ("start", ["left"])] := by
    decide
  have hleft : p.marks.get? "left" = some .visiting := by decide
  obtain ⟨hsound, hlookup, hdepth⟩ :=
    (advance_sound Graph.entered.nodes Graph.entered.dependenciesOf hclosed).2 6
  exact ⟨hclosed, hvisits, hleft, by decide, hsound, hlookup _ _ _ _ hvisits hleft, hdepth,
    by decide⟩

end Provision.Search.Progress
