import Mathlib.Data.List.Nodup
import Provision.Proofs.Graph.Scope

/-!
# What a traversal keeps

Each covered name has been emitted, or stands in the queue, or waits, and it does one of these
only, once. A waiting name knows how many of its covered dependencies are still to come, and
there is at least one; a name that is free to be emitted waits for none. Emitting a name tells
each of its dependents once for each edge, so that in the middle of a step some arrivals are
still `due`. One invariant with these arrivals as a parameter serves both between the steps,
where nothing is due, and inside of them.

> `arrive_invariant`: an arrival is one less due;
> `next_invariant`: a step keeps the invariant;
> `order_emits`: the traversal ends, with nothing left in the queue.
-/

namespace Provision.Traversal

variable {g : Graph} {root : Option String}

/-! ## Waiting -/

/-- How many of the dependencies of a name are covered and not among those emitted. -/
def waiting (g : Graph) (root : Option String) (out : List String) (n : String) : Nat :=
  (g.dependenciesOf n).countP fun d => (scope g root).contains d && !out.contains d

/-- A node waits for nothing when its dependencies within reach are all out. -/
theorem waiting_eq_zero_iff {out : List String} {n : String} :
    waiting g root out n = 0 ↔ ∀ d ∈ g.dependenciesOf n, d ∈ scope g root → d ∈ out := by
  rw [waiting, List.countP_eq_zero]
  refine forall₂_congr fun d _ => ?_
  simp

/-- What is emitted is waited for no longer, once for each edge. -/
theorem waiting_concat {out : List String} {c : String} (hc : c ∈ scope g root) (hout : c ∉ out)
    (n : String) : waiting g root out n =
      waiting g root (out ++ [c]) n + (g.dependenciesOf n).count c := by
  rw [waiting, waiting]
  induction g.dependenciesOf n with
  | nil => rfl
  | cons d deps ih =>
    rw [List.countP_cons, List.countP_cons, List.count_cons, ih]
    by_cases hd : d = c
    · simp [hd, hc, hout]
      omega
    · simp [hd]
      omega

/-- Emitting another node makes nothing wait again. -/
theorem waiting_concat_eq_zero {out : List String} {n : String} (c : String)
    (h : waiting g root out n = 0) : waiting g root (out ++ [c]) n = 0 := by
  rw [waiting_eq_zero_iff] at h ⊢
  exact fun d hd hs => List.mem_append_left _ (h d hd hs)

/-! ## The invariant -/

/-- The state of a traversal that has emitted `out`, with some arrivals still due. -/
structure Invariant (g : Graph) (root : Option String) (out due : List String)
    (t : Traversal) : Prop where
  graph : t.graph = g
  /-- Emitted, queued and waiting names are the scope, without repetition. -/
  covers : (out ++ t.queue ++ t.pending.map Prod.fst).Perm (scope g root)
  counts : ∀ e ∈ t.pending, e.2 = waiting g root out e.1 + due.count e.1 ∧ 1 ≤ e.2
  free : ∀ n ∈ t.queue, n ∈ starts g root ∨ waiting g root out n = 0
  ordered : ∀ before n after, out = before ++ n :: after →
    n ∈ starts g root ∨ waiting g root before n = 0

namespace Invariant

variable {out due : List String} {t : Traversal}

/-- Nothing is emitted, queued or pending twice. -/
theorem nodup (hg : g.Consistent) (h : Invariant g root out due t) :
    (out ++ t.queue ++ t.pending.map Prod.fst).Nodup :=
  h.covers.nodup_iff.mpr (scope_nodup hg root)

theorem pending_nodup (hg : g.Consistent) (h : Invariant g root out due t) :
    (t.pending.map Prod.fst).Nodup :=
  (List.nodup_append.mp (h.nodup hg)).2.1

theorem out_nodup (hg : g.Consistent) (h : Invariant g root out due t) : out.Nodup :=
  (List.nodup_append.mp (List.nodup_append.mp (h.nodup hg)).1).1

theorem mem_scope (h : Invariant g root out due t) {n : String} (hn : n ∈ out) :
    n ∈ scope g root :=
  h.covers.subset (List.mem_append_left _ (List.mem_append_left _ hn))

end Invariant

/-! ## Arrivals -/

/-- Taking the only entry of a name away moves the name to the front. -/
theorem pending_perm {pending : List (String × Nat)} {n : String}
    (hnodup : (pending.map Prod.fst).Nodup) (hn : n ∈ pending.map Prod.fst) :
    (pending.map Prod.fst).Perm (n :: (pending.filter (·.1 != n)).map Prod.fst) := by
  have hkeys : (pending.filter (·.1 != n)).map Prod.fst = (pending.map Prod.fst).erase n := by
    rw [hnodup.erase_eq_filter, List.filter_map]
    rfl
  rw [hkeys]
  exact List.perm_cons_erase hn

/-- What an arrival can do: nothing to a name that does not wait; the last one that a name waits for
moves it to the end of the queue; any other one is counted. -/
theorem arrive_cases (t : Traversal) (n : String) :
    (n ∉ t.pending.map Prod.fst ∧ t.arrive n = t) ∨
    (∃ k, (n, k) ∈ t.pending ∧ k ≤ 1 ∧ t.arrive n =
      { t with queue := t.queue ++ [n], pending := t.pending.filter (·.1 != n) }) ∨
    (∃ k, (n, k) ∈ t.pending ∧ 1 < k ∧ t.arrive n =
      { t with pending := t.pending.map fun e => if e.1 == n then (n, k - 1) else e }) := by
  rw [arrive]
  split
  next hnone =>
    refine Or.inl ⟨fun hn => ?_, rfl⟩
    obtain ⟨e, he, rfl⟩ := List.mem_map.mp hn
    simpa using List.find?_eq_none.mp hnone e he
  next m k hfound =>
    have hmem := List.mem_of_find?_eq_some hfound
    obtain rfl : m = n := by simpa using List.find?_some hfound
    split
    next hlast => exact Or.inr (Or.inl ⟨k, hmem, hlast, rfl⟩)
    next hmore => exact Or.inr (Or.inr ⟨k, hmem, Nat.lt_of_not_le hmore, rfl⟩)

/-- Counting an arrival leaves the names that wait. -/
theorem pending_keys_counted (pending : List (String × Nat)) (n : String) (k : Nat) :
    (pending.map fun e => if e.1 == n then (n, k) else e).map Prod.fst =
      pending.map Prod.fst := by
  rw [List.map_map]
  refine List.map_congr_left fun e _ => ?_
  by_cases he : e.1 = n <;> simp [he]

/-- One arrival is one less due: a name whose last dependency arrives becomes free. -/
theorem arrive_invariant (hg : g.Consistent) {out due : List String} {t : Traversal}
    {n : String} (h : Invariant g root out (n :: due) t) :
    Invariant g root out due (t.arrive n) := by
  rcases arrive_cases t n with ⟨hout, ht⟩ | ⟨k, hmem, hlast, ht⟩ | ⟨k, hmem, hmore, ht⟩ <;> rw [ht]
  · -- the name does not wait: the arrival changes nothing
    refine ⟨h.graph, h.covers, fun e he => ?_, h.free, h.ordered⟩
    have hne : n ≠ e.1 := fun hen => hout (hen ▸ List.mem_map_of_mem he)
    have hcount := h.counts e he
    rwa [List.count_cons_of_ne hne] at hcount
  · have hk := h.counts _ hmem
    simp only [List.count_cons_self] at hk
    refine ⟨h.graph, ?_, fun e he => ?_, fun x hx => ?_, h.ordered⟩
    · -- the name moves from those that wait to the end of the queue
      refine List.Perm.trans ?_ h.covers
      have hperm := pending_perm (h.pending_nodup hg) (List.mem_map_of_mem hmem)
      have hmove := (hperm.append_left (out ++ t.queue)).symm
      simpa using hmove
    · obtain ⟨he, hne⟩ := List.mem_filter.mp he
      have hcount := h.counts e he
      rwa [List.count_cons_of_ne (by simpa using Ne.symm (by simpa using hne))] at hcount
    · rcases List.mem_append.mp hx with hx | hx
      · exact h.free x hx
      · rw [List.mem_singleton.mp hx]
        exact Or.inr (by omega)
  · have hk := h.counts _ hmem
    simp only [List.count_cons_self] at hk
    refine ⟨h.graph, ?_, fun e he => ?_, h.free, h.ordered⟩
    · simp only [pending_keys_counted]
      exact h.covers
    · obtain ⟨e, hmem', rfl⟩ := List.mem_map.mp he
      by_cases hem : e.1 = n
      · simp only [hem, beq_self_eq_true, if_true]
        omega
      · have hcount := h.counts e hmem'
        rw [List.count_cons_of_ne (Ne.symm hem)] at hcount
        simpa [hem] using hcount

/-- All arrivals that are due can be carried out one after the other. -/
theorem foldl_arrive_invariant (hg : g.Consistent) {out : List String} :
    ∀ (due : List String) {t : Traversal}, Invariant g root out due t →
      Invariant g root out [] (due.foldl arrive t) := by
  intro due
  induction due with
  | nil => intro t h; exact h
  | cons n due ih => intro t h; exact ih (arrive_invariant hg h)

/-! ## Steps -/

/-- A traversal ends exactly when its queue is empty. -/
theorem next_eq_none_iff (t : Traversal) : t.next = none ↔ t.queue = [] := by
  rw [next]
  split
  next hq => simp [hq]
  next hq => simp [hq]

/-- The head of the queue is emitted: all its dependents are due to hear of it. -/
theorem emit_invariant (hg : g.Consistent) {out rest : List String} {t : Traversal} {c : String}
    (h : Invariant g root out [] t) (hq : t.queue = c :: rest) :
    Invariant g root (out ++ [c]) (g.dependentsOf c) { t with queue := rest } := by
  have hcovers := h.covers
  have hnodup := h.nodup hg
  rw [hq] at hcovers hnodup
  have hc : c ∈ scope g root := hcovers.subset (by simp)
  have hout : c ∉ out := by
    intro hc'
    have hdisj := (List.nodup_append.mp (List.nodup_append.mp hnodup).1).2.2
    exact hdisj c hc' c (List.mem_cons_self ..) rfl
  refine ⟨h.graph, ?_, fun e he => ?_, fun n hn => ?_, fun before n after hsplit => ?_⟩
  · simpa using hcovers
  · have hcount := h.counts e he
    rw [List.count_nil, Nat.add_zero, waiting_concat hc hout, ← hg.transposed] at hcount
    exact hcount
  · exact (h.free n (by rw [hq]; exact List.mem_cons_of_mem _ hn)).imp_right
      (waiting_concat_eq_zero c)
  · -- the split is inside of what was emitted before, or at its end
    rcases List.eq_nil_or_concat after with rfl | ⟨after', last, rfl⟩
    · obtain ⟨rfl, hlast⟩ := List.append_inj' hsplit rfl
      rw [← (List.cons.inj hlast).1]
      exact h.free c (by rw [hq]; exact List.mem_cons_self ..)
    · have hsplit' : out ++ [c] = (before ++ n :: after') ++ [last] := by simpa using hsplit
      exact h.ordered before n after' (List.append_inj' hsplit' rfl).1

/-- **A step keeps the invariant.** -/
theorem next_invariant (hg : g.Consistent) {out : List String} {t t' : Traversal} {c : String}
    (h : Invariant g root out [] t) (hnext : t.next = some (c, t')) :
    Invariant g root (out ++ [c]) [] t' := by
  rw [next] at hnext
  split at hnext
  next => simp at hnext
  next c' rest hq =>
    obtain ⟨rfl, rfl⟩ := Prod.mk.inj (Option.some.inj hnext)
    obtain rfl := h.graph
    exact foldl_arrive_invariant hg _ (emit_invariant hg h hq)

/-! ## The start -/

/-- **A fresh traversal has the invariant.** -/
theorem start_invariant (hg : g.Consistent) (root : Option String) :
    Invariant g root [] [] (start g root) := by
  have hpending : (start g root).pending.map Prod.fst =
      g.nodes.filter fun n => (scope g root).contains n && !(starts g root).contains n := by
    simp [start, Function.comp_def]
  refine ⟨rfl, ?_, fun e he => ?_, fun n hn => Or.inl hn, by simp⟩
  · rw [hpending]
    refine (List.perm_ext_iff_of_nodup ?_ (scope_nodup hg root)).mpr fun n => ?_
    · refine List.nodup_append.mpr
        ⟨starts_nodup g root, g.dependencies.nodup.filter _, ?_⟩
      rintro a ha b hb rfl
      simp only [List.mem_filter, Bool.and_eq_true, Bool.not_eq_true', List.contains_eq_mem,
        decide_eq_false_iff_not] at hb
      exact hb.2.2 ha
    · have hstart : n ∈ starts g root → n ∈ scope g root := mem_scope_of_mem_starts hg
      have hnode : n ∈ scope g root → n ∈ g.nodes := mem_nodes_of_mem_scope hg
      have hqueue : (start g root).queue = starts g root := rfl
      simp only [hqueue, List.nil_append, List.mem_append, List.mem_filter, Bool.and_eq_true,
        Bool.not_eq_true', List.contains_eq_mem, decide_eq_true_eq, decide_eq_false_iff_not]
      tauto
  · obtain ⟨n, hn, rfl⟩ := List.mem_map.mp he
    simp only [List.mem_filter, Bool.and_eq_true, Bool.not_eq_true', List.contains_eq_mem,
      decide_eq_true_eq, decide_eq_false_iff_not] at hn
    obtain ⟨d, hd, hscope⟩ := exists_mem_dependenciesOf hg hn.2.1 hn.2.2
    refine ⟨?_, List.length_pos_of_mem (List.mem_filter.mpr ⟨hd, by simpa using hscope⟩)⟩
    show ((g.dependenciesOf n).filter fun d => (scope g root).contains d).length = _
    simp [waiting, List.countP_eq_length_filter]

/-! ## Runs -/

/-- What is emitted on the way from one state of a traversal to another. -/
inductive Emits : Traversal → List String → Traversal → Prop
  | stay (t : Traversal) : Emits t [] t
  | step {t t' t'' : Traversal} {c : String} {out : List String}
      (next : t.next = some (c, t')) (rest : Emits t' out t'') : Emits t (c :: out) t''

/-- **A run keeps the invariant.** -/
theorem Emits.invariant (hg : g.Consistent) {t t' : Traversal} {new : List String}
    (h : Emits t new t') :
    ∀ {out : List String}, Invariant g root out [] t → Invariant g root (out ++ new) [] t' := by
  induction h with
  | stay t => intro out hinv; rwa [List.append_nil]
  | step hnext _ ih =>
    intro out hinv
    have hrest := ih (next_invariant hg hinv hnext)
    rwa [List.append_assoc, List.singleton_append] at hrest

/-- A bounded run stops early only where the traversal ends. -/
theorem take_emits : ∀ (k : Nat) (t : Traversal),
    ∃ t', Emits t (take k t) t' ∧ (t'.next = none ∨ (take k t).length = k) := by
  intro k
  induction k with
  | zero => intro t; exact ⟨t, .stay t, Or.inr rfl⟩
  | succ k ih =>
    intro t
    rw [take]
    split
    next hnext => exact ⟨t, .stay t, Or.inl hnext⟩
    next c t' hnext =>
      obtain ⟨t'', hrun, hend⟩ := ih t'
      exact ⟨t'', .step hnext hrun, hend.imp_right fun hlen => by rw [List.length_cons, hlen]⟩

/-- **The traversal ends.** What `order` emits leads to a state with nothing in the queue: there
are no more names than nodes. -/
theorem order_emits (hg : g.Consistent) (root : Option String) :
    ∃ t, Emits (start g root) (order g root) t ∧ t.queue = [] ∧
      Invariant g root (order g root) [] t := by
  obtain ⟨t, hrun, hend⟩ := take_emits g.nodeCount (start g root)
  have hinv : Invariant g root (order g root) [] t :=
    hrun.invariant hg (start_invariant hg root)
  refine ⟨t, hrun, ?_, hinv⟩
  rcases hend with hnone | hlen
  · exact (next_eq_none_iff t).mp hnone
  · -- as many names have been emitted as there are nodes, which leaves none for the queue
    have hscope := (scope_nodup hg root).length_le_of_subset fun _ => mem_nodes_of_mem_scope hg
    have hcovers := hinv.covers.length_eq
    have horder : (order g root).length = g.nodes.length := hlen.trans (nodeCount_eq g)
    simp only [List.length_append] at hcovers
    exact List.length_eq_zero_iff.mp (by omega)

/-- What `order` emits is all that is emitted until nothing is left. -/
theorem order_ends (hg : g.Consistent) (root : Option String) :
    ∃ t, Emits (start g root) (order g root) t ∧ t.next = none := by
  obtain ⟨t, hrun, hend, -⟩ := order_emits hg root
  exact ⟨t, hrun, (next_eq_none_iff t).mpr hend⟩

end Provision.Traversal
