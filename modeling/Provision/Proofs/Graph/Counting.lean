import Provision.Proofs.Graph.Closure

/-!
# The counters of a traversal never run out

A name that waits has a counter, from which each arrival takes one. `arrive` is total: of a counter
at zero it makes what it makes of one at one, and the name would enter the queue without anything
having been emitted for it. That such a counter is never met is a fact on the states that the calls
of `next` lead to, and on those inside of a call, where a name may be told several times of one
dependency and leave the counters in between. `arrive?` is the arrival that has no result at such a
counter. Along every traversal it is the arrival that runs.

> `foldlM_arrive?_eq_some`: no arrival that is due meets a counter at zero;
> `take_emits_skip`: so many calls of `next` are a run;
> `skip_accounts`: what holds after any number of calls.
-/

namespace Provision.Traversal

variable {g : Graph} {root : Option String}

/-! ## Arrivals that may fail -/

/-- Tells a waiting node that one dependency has been emitted, unless its counter says that it
waits for none. -/
def arrive? (t : Traversal) (name : String) : Option Traversal :=
  match t.pending.find? (·.1 == name) with
  | none => some t
  | some (_, 0) => none
  | some (_, left + 1) =>
    if left = 0 then
      some { t with queue := t.queue ++ [name], pending := t.pending.filter (·.1 != name) }
    else
      some { t with pending := t.pending.map fun e => if e.1 == name then (name, left) else e }

/-- Where all counters are at least one, nothing fails. -/
theorem arrive?_eq_some {t : Traversal} (h : ∀ e ∈ t.pending, 1 ≤ e.2) (name : String) :
    arrive? t name = some (t.arrive name) := by
  rw [arrive?, arrive]
  cases hfound : t.pending.find? (·.1 == name) with
  | none => rfl
  | some e =>
    obtain ⟨m, k⟩ := e
    have hpos : 1 ≤ k := h _ (List.mem_of_find?_eq_some hfound)
    obtain ⟨left, rfl⟩ : ∃ left, k = left + 1 := ⟨k - 1, by omega⟩
    by_cases hlast : left = 0
    · simp [hlast]
    · simp [hlast]

/-- **No arrival that is due meets a counter at zero.** The invariant knows, in the middle of a
step, how many arrivals each waiting name has still to come. -/
theorem foldlM_arrive?_eq_some (hg : g.Consistent) {out : List String} :
    ∀ (due : List String) {t : Traversal}, Invariant g root out due t →
      due.foldlM arrive? t = some (due.foldl arrive t) := by
  intro due
  induction due with
  | nil => intro t _; rfl
  | cons name due ih =>
    intro t h
    rw [List.foldlM_cons, arrive?_eq_some (fun e he => (h.counts e he).2), List.foldl_cons]
    exact ih (arrive_invariant hg h)

/-! ## Calls -/

/-- The state after so many calls of `next`, which emit `take`. A call that finds the queue empty
emits nothing and leaves the state as it is. -/
def skip : Nat → Traversal → Traversal
  | 0, t => t
  | k + 1, t =>
    match t.next with
    | none => t
    | some (_, t') => skip k t'

/-- Calls are a run. -/
theorem take_emits_skip : ∀ (k : Nat) (t : Traversal), Emits t (take k t) (skip k t) := by
  intro k
  induction k with
  | zero => exact fun t => .stay t
  | succ k ih =>
    intro t
    rw [take, skip]
    cases hnext : t.next with
    | none => exact .stay t
    | some emitted => exact .step hnext (ih emitted.2)

/-! ## What the states account for -/

/-- What a state of a traversal says of the names that are covered, once those of `out` have been
emitted. -/
structure Accounts (g : Graph) (root : Option String) (out : List String) (t : Traversal) :
    Prop where
  queued_nodup : t.queue.Nodup
  emitted_nodup : out.Nodup
  waiting_nodup : (t.pending.map Prod.fst).Nodup
  emitted_queued : out.Disjoint t.queue
  emitted_waiting : out.Disjoint (t.pending.map Prod.fst)
  queued_waiting : t.queue.Disjoint (t.pending.map Prod.fst)
  /-- Together they are all that is covered, and nothing else. -/
  covers : ∀ n, (n ∈ out ∨ n ∈ t.queue ∨ n ∈ t.pending.map Prod.fst) ↔ Covers g root n
  /-- A name waits for each time that it declares a covered dependency which is still to come. -/
  counts : ∀ n k, (n, k) ∈ t.pending →
    k = ((g.dependenciesOf n).filter fun d => d ∈ scope g root ∧ d ∉ out).length ∧ 1 ≤ k

/-- The invariant of the traversal in terms of what is still to be counted. -/
theorem Invariant.accounts (hg : g.Consistent) {out : List String} {t : Traversal}
    (h : Invariant g root out [] t) : Accounts g root out t := by
  have hnodup := h.nodup hg
  obtain ⟨hfront, hwaiting, hapart⟩ := List.nodup_append'.mp hnodup
  obtain ⟨hout, hqueue, hemitted⟩ := List.nodup_append'.mp hfront
  rw [List.disjoint_append_left] at hapart
  refine ⟨hqueue, hout, hwaiting, hemitted, hapart.1, hapart.2, fun n => ?_, fun n k hnk => ?_⟩
  · rw [← mem_scope_iff_covers hg, ← h.covers.mem_iff, List.mem_append, List.mem_append, or_assoc]
  · obtain ⟨hcount, hpos⟩ := h.counts _ hnk
    rw [List.count_nil, Nat.add_zero, waiting, List.countP_eq_length_filter] at hcount
    refine ⟨hcount.trans ?_, hpos⟩
    congr 2
    funext d
    simp

/-- **What holds after any number of calls.** Whatever the index refers to, and wherever the
traversal starts: no name has been emitted twice, stands in the queue twice or waits twice, and no
name does two of these; together they are the names that are covered. The counter of a name that
waits is the number of its covered dependencies that have not been emitted, each counted as often as
it is declared, and at least one. So a further call meets no counter at zero, whichever of its
arrivals comes to it, and what it puts into the queue has never been there. -/
theorem skip_accounts (index : DependencyIndex) (root : Option String) (k : Nat) :
    let g := Graph.build index
    let out := take k (start g root)
    let t := skip k (start g root)
    (∀ n, n ∈ scope g root ↔ Covers g root n) ∧ Accounts g root out t ∧
    ∀ c rest, t.queue = c :: rest → ∃ t' new, t.next = some (c, t') ∧
      (g.dependentsOf c).foldlM arrive? { t with queue := rest } = some t' ∧
      t'.queue = rest ++ new ∧ (out ++ t.queue ++ new).Nodup := by
  intro g out t
  have hg : g.Consistent := Graph.build_consistent index
  have hinv : Invariant g root out [] t := by
    simpa using (take_emits_skip k _).invariant hg (start_invariant hg root)
  refine ⟨mem_scope_iff_covers hg, hinv.accounts hg, fun c rest hq => ?_⟩
  have hgraph : t.graph = g := hinv.graph
  have hnext : t.next = some (c, (g.dependentsOf c).foldl arrive { t with queue := rest }) := by
    rw [next, hq, hgraph]
  have hdue := emit_invariant hg hinv hq
  refine ⟨_, _, hnext, foldlM_arrive?_eq_some hg _ hdue, foldl_arrive_queue hg _ hdue, ?_⟩
  -- the state after the call has emitted the head of the queue and holds the rest of it
  have hafter := ((next_invariant hg hinv hnext).nodup hg)
  rw [foldl_arrive_queue hg _ hdue] at hafter
  refine (List.nodup_append.mp hafter).1.perm ?_
  simp [hq]

/-- A dependency that is declared three times is waited for three times. It lies on a cycle with the
root, at which the traversal starts. -/
example :
    let t := start (Graph.build ⟨[("root", ["far"]), ("near", ["root"]),
      ("far", ["near", "root", "near", "near", "gone"])], by decide⟩) (some "root")
    (skip 1 t).pending = [("far", 3)] ∧ take 4 t = ["root", "near", "far"] := by
  decide

end Provision.Traversal
