import Mathlib.Data.List.Dedup
import Provision.Proofs.Graph.Traversal

/-!
# What a traversal emits, block by block

A name that is emitted frees the names that wait for nothing else. They enter the queue together,
in the order in which they are declared: the dependents of a name are listed target by target, so
that the last arrivals at two of them come in that order too. As the queue is served from its
front, the traversal emits the start nodes and then, for each name that it has emitted, the block
of names that this one has freed.

> `next_queue`: a step appends what it has freed to the queue;
> `order_eq`: the names emitted are the start nodes, followed by the blocks.
-/

namespace Provision

/-! ## The dependents of a name, in order of declaration -/

namespace Graph

/-- Whether the dependents of each name are listed in order of declaration, repetitions aside. -/
def Listed (g : Graph) : Prop :=
  ∀ d, (g.dependentsOf d).dedup = g.nodes.filter fun n => (g.dependenciesOf n).contains d

/-- A name that is pushed several times in a row counts once, unless it is not pushed at all. -/
theorem dedup_replicate_append {a : String} {l : List String} (ha : a ∉ l) (k : Nat) :
    (List.replicate k a ++ l).dedup = if k = 0 then l.dedup else a :: l.dedup := by
  induction k with
  | zero => rfl
  | succ k ih =>
    rw [List.replicate_succ, List.cons_append]
    cases k with
    | zero => exact List.dedup_cons_of_notMem ha
    | succ k =>
      rw [List.dedup_cons_of_mem (by simp), ih]
      rfl

/-- Of distinct names that are each pushed some number of times, those that are pushed at least
once remain. -/
theorem dedup_flatMap_replicate (count : String → Nat) {l : List String} (hl : l.Nodup) :
    (l.flatMap fun n => List.replicate (count n) n).dedup = l.filter fun n => 0 < count n := by
  induction l with
  | nil => rfl
  | cons a l ih =>
    rw [List.nodup_cons] at hl
    have hrest : a ∉ l.flatMap fun n => List.replicate (count n) n := by
      intro ha
      obtain ⟨n, hn, han⟩ := List.mem_flatMap.mp ha
      rw [(List.mem_replicate.mp han).2] at hl
      exact hl.1 hn
    rw [List.flatMap_cons, dedup_replicate_append hrest, ih hl.2]
    by_cases hcount : count a = 0
    · simp [hcount]
    · simp [hcount, Nat.pos_of_ne_zero hcount]

/-- Each target stands among the dependents of a name as often as it declares that name. -/
theorem dependentsIn_eq (index : DependencyIndex) (d : String) :
    dependentsIn index d =
      index.keys.flatMap fun n => List.replicate (((index.get? n).getD []).count d) n := by
  rw [dependentsIn, Registry.keys, List.flatMap_map]
  refine List.flatMap_congr fun e he => ?_
  rw [(index.get?_eq_some_iff e.1 e.2).mpr he, List.map_const', ← List.countP_eq_length_filter]
  rfl

/-- The dependents in a graph that is built from an index come in the order of its nodes. -/
theorem build_listed (index : DependencyIndex) : (build index).Listed := by
  intro d
  rw [nodes_build]
  by_cases hd : d ∈ index.keys
  · rw [dependentsOf_build hd, dependentsIn_eq, dedup_flatMap_replicate _ index.keys_nodup]
    refine List.filter_congr fun n _ => ?_
    rw [Bool.eq_iff_iff, decide_eq_true_iff, List.count_pos_iff, List.contains_iff_mem,
      mem_dependenciesOf_build, and_iff_left hd]
  · -- nothing depends on a name that is not declared
    have hnone : ∀ n, d ∉ (build index).dependenciesOf n := by
      intro n hn
      exact hd ((mem_dependenciesOf_build index n d).mp hn).2
    have hlist : (build index).dependentsOf d = [] := by
      rw [dependentsOf, build, Registry.get?_map, (index.get?_eq_none_iff d).mpr hd]
      rfl
    rw [hlist, List.dedup_nil, eq_comm, List.filter_eq_nil_iff]
    intro n _
    rw [List.contains_iff_mem]
    exact hnone n

end Graph

namespace Traversal

variable {g : Graph} {root : Option String}

/-! ## Blocks -/

/-- The block of a name that is emitted after the names of `out`: what it frees. -/
def freed (g : Graph) (root : Option String) (out : List String) (c : String) : List String :=
  g.nodes.filter fun n => (scope g root).contains n && !(starts g root).contains n &&
    waiting g root out n != 0 && waiting g root (out ++ [c]) n == 0

/-- The blocks of names that are emitted one after another, after the names of `out`. -/
def blocks (g : Graph) (root : Option String) : List String → List String → List String
  | _, [] => []
  | out, c :: rest => freed g root out c ++ blocks g root (out ++ [c]) rest

/-- A node is freed by an emission when nothing else was waited for. -/
theorem mem_freed_iff {out : List String} {c n : String} : n ∈ freed g root out c ↔
    n ∈ g.nodes ∧ n ∈ scope g root ∧ n ∉ starts g root ∧ waiting g root out n ≠ 0 ∧
      waiting g root (out ++ [c]) n = 0 := by
  simp [freed, and_assoc]

/-- Emissions in two parts free the names of the first part and then those of the second. -/
theorem blocks_append (g : Graph) (root : Option String) (l l' : List String) :
    ∀ out, blocks g root out (l ++ l') =
      blocks g root out l ++ blocks g root (out ++ l) l' := by
  induction l with
  | nil => intro out; simp [blocks]
  | cons c l ih => intro out; simp [blocks, ih]

theorem blocks_concat (g : Graph) (root : Option String) (out : List String) (c : String) :
    blocks g root [] (out ++ [c]) = blocks g root [] out ++ freed g root out c := by
  rw [blocks_append, blocks, blocks, List.nil_append, List.append_nil]

/-- A name that is freed is freed by one particular emission. -/
theorem exists_of_mem_blocks {n : String} {rest : List String} : ∀ {out : List String},
    n ∈ blocks g root out rest →
      ∃ former c later, rest = former ++ c :: later ∧ n ∈ freed g root (out ++ former) c := by
  induction rest with
  | nil => intro out h; simp [blocks] at h
  | cons c rest ih =>
    intro out h
    rcases List.mem_append.mp h with h | h
    · exact ⟨[], c, rest, rfl, by rwa [List.append_nil]⟩
    · obtain ⟨former, c', later, rfl, hfreed⟩ := ih h
      exact ⟨c :: former, c', later, rfl, by simpa using hfreed⟩

/-! ## Arrivals -/

/-- What an arrival does to the queue: the name enters it with the last arrival that is due. -/
theorem arrive_queue {out due : List String} {t : Traversal} {n : String}
    (h : Invariant g root out (n :: due) t) :
    (t.arrive n).queue = t.queue ++
      if n ∈ t.pending.map Prod.fst ∧ waiting g root out n = 0 ∧ n ∉ due then [n] else [] := by
  rcases arrive_cases t n with ⟨hout, ht⟩ | ⟨k, hmem, hlast, ht⟩ | ⟨k, hmem, hmore, ht⟩ <;> rw [ht]
  · rw [if_neg fun hn => hout hn.1, List.append_nil]
  · have hcount := (h.counts _ hmem).1
    simp only [List.count_cons_self] at hcount
    have hdue : n ∉ due := List.count_eq_zero.mp (by omega)
    rw [if_pos ⟨List.mem_map_of_mem hmem, by omega, hdue⟩]
  · have hcount := (h.counts _ hmem).1
    simp only [List.count_cons_self] at hcount
    -- something is still waited for: another arrival, or a name that is not emitted yet
    rw [if_neg, List.append_nil]
    rintro ⟨-, hzero, hdue⟩
    have hnone := List.count_eq_zero.mpr hdue
    omega

/-- An arrival leaves all other names that wait, and the name itself if it is due again. -/
theorem mem_pending_arrive {out due : List String} {t : Traversal} {n m : String}
    (h : Invariant g root out (n :: due) t) (hm : m ∈ due) :
    m ∈ (t.arrive n).pending.map Prod.fst ↔ m ∈ t.pending.map Prod.fst := by
  rcases arrive_cases t n with ⟨-, ht⟩ | ⟨k, hmem, hlast, ht⟩ | ⟨k, -, -, ht⟩ <;> rw [ht]
  · have hcount := (h.counts _ hmem).1
    simp only [List.count_cons_self] at hcount
    have hne : m ≠ n := by
      rintro rfl
      have hpos := List.count_pos_iff.mpr hm
      omega
    simp [hne]
  · simp only [pending_keys_counted]

/-- What all arrivals do to the queue: each name that waits for nothing else enters it once, with
the last of its arrivals. -/
theorem foldl_arrive_queue (hg : g.Consistent) {out : List String} :
    ∀ (due : List String) {t : Traversal}, Invariant g root out due t →
      (due.foldl arrive t).queue = t.queue ++ due.dedup.filter fun n =>
        (t.pending.map Prod.fst).contains n && waiting g root out n == 0 := by
  intro due
  induction due with
  | nil => intro t h; simp
  | cons n due ih =>
    intro t h
    have hsame : (due.dedup.filter fun m =>
          ((t.arrive n).pending.map Prod.fst).contains m && waiting g root out m == 0) =
        due.dedup.filter fun m =>
          (t.pending.map Prod.fst).contains m && waiting g root out m == 0 := by
      refine List.filter_congr fun m hm => ?_
      have hpending := mem_pending_arrive h (List.mem_dedup.mp hm)
      rw [← List.contains_iff_mem, ← List.contains_iff_mem, ← Bool.eq_iff_iff] at hpending
      rw [hpending]
    rw [List.foldl_cons, ih (arrive_invariant hg h), hsame, arrive_queue h, List.append_assoc]
    by_cases hdue : n ∈ due
    · rw [if_neg fun hn => hn.2.2 hdue, List.nil_append, List.dedup_cons_of_mem hdue]
    · rw [List.dedup_cons_of_notMem hdue, List.filter_cons]
      by_cases hn : n ∈ t.pending.map Prod.fst ∧ waiting g root out n = 0
      · rw [if_pos ⟨hn.1, hn.2, hdue⟩, if_pos (by simpa using hn), List.singleton_append]
      · rw [if_neg fun h => hn ⟨h.1, h.2.1⟩, if_neg (by simpa using hn), List.nil_append]

/-! ## Steps -/

/-- A node that waits for nothing never waits again. -/
theorem waiting_append_eq_zero {out : List String} {n : String} (h : waiting g root out n = 0)
    (new : List String) : waiting g root (out ++ new) n = 0 := by
  rw [waiting_eq_zero_iff] at h ⊢
  exact fun d hd hs => List.mem_append_left _ (h d hd hs)

/-- Whether the queue holds the start nodes and all blocks, as far as they have not been emitted. -/
def Queued (g : Graph) (root : Option String) (out : List String) (t : Traversal) : Prop :=
  out ++ t.queue = starts g root ++ blocks g root [] out

/-- The names that wait are those that are covered, where no traversal starts, and that have not
been freed. -/
theorem Queued.mem_pending_iff (hg : g.Consistent) {out : List String} {t : Traversal}
    (hq : Queued g root out t) (h : Invariant g root out [] t) (n : String) :
    n ∈ t.pending.map Prod.fst ↔
      n ∈ scope g root ∧ n ∉ starts g root ∧ waiting g root out n ≠ 0 := by
  constructor
  · intro hn
    refine ⟨h.covers.subset (List.mem_append_right _ hn), fun hstart => ?_, ?_⟩
    · -- the start nodes have been emitted, or stand in the queue
      have hqueue : n ∈ out ++ t.queue := by
        rw [hq]
        exact List.mem_append_left _ hstart
      exact (List.nodup_append.mp (h.nodup hg)).2.2 n hqueue n hn rfl
    · obtain ⟨e, he, rfl⟩ := List.mem_map.mp hn
      obtain ⟨hcount, hpos⟩ := h.counts e he
      rw [List.count_nil, Nat.add_zero] at hcount
      omega
  · rintro ⟨hscope, hstart, hwait⟩
    rcases List.mem_append.mp (h.covers.symm.subset hscope) with hn | hn
    · exfalso
      rcases List.mem_append.mp hn with hn | hn
      · obtain ⟨before, after, hsplit⟩ := List.append_of_mem hn
        have hzero := (h.ordered before n after hsplit).resolve_left hstart
        exact hwait (hsplit ▸ waiting_append_eq_zero hzero (n :: after))
      · exact hwait ((h.free n hn).resolve_left hstart)
    · exact hn

/-- **A step appends what it frees to the queue.** -/
theorem next_queue (hg : g.Consistent) (hl : g.Listed) {out : List String} {t t' : Traversal}
    {c : String} (h : Invariant g root out [] t) (hq : Queued g root out t)
    (hnext : t.next = some (c, t')) : ∃ rest, t.queue = c :: rest ∧
      t'.queue = rest ++ freed g root out c := by
  rw [next] at hnext
  split at hnext
  next => simp at hnext
  next c' rest hqueue =>
    obtain ⟨rfl, rfl⟩ := Prod.mk.inj (Option.some.inj hnext)
    refine ⟨rest, hqueue, ?_⟩
    obtain rfl := h.graph
    have hmem : c' ∈ out ++ t.queue := by simp [hqueue]
    have hscope : c' ∈ scope t.graph root := h.covers.subset (List.mem_append_left _ hmem)
    have hout : c' ∉ out := by
      intro hc
      have hdisj := (List.nodup_append.mp (List.nodup_append.mp (h.nodup hg)).1).2.2
      exact hdisj c' hc c' (by simp [hqueue]) rfl
    rw [foldl_arrive_queue hg _ (emit_invariant hg h hqueue), hl, List.filter_filter, freed]
    refine congrArg (rest ++ ·) (List.filter_congr fun n _ => ?_)
    rw [Bool.eq_iff_iff]
    simp only [Bool.and_eq_true, List.contains_eq_mem, decide_eq_true_eq, Bool.not_eq_true',
      decide_eq_false_iff_not, bne_iff_ne, beq_iff_eq, hq.mem_pending_iff hg h n]
    constructor
    · rintro ⟨⟨⟨hin, hstart, hwait⟩, hzero⟩, -⟩
      exact ⟨⟨⟨hin, hstart⟩, hwait⟩, hzero⟩
    · rintro ⟨⟨⟨hin, hstart⟩, hwait⟩, hzero⟩
      -- what is freed depends on the name that is emitted
      have hconcat := waiting_concat hscope hout n
      exact ⟨⟨⟨hin, hstart, hwait⟩, hzero⟩, List.count_pos_iff.mp (by omega)⟩

/-! ## Runs -/

/-- A traversal at its start has its start nodes queued and nothing freed. -/
theorem start_queued (g : Graph) (root : Option String) : Queued g root [] (start g root) := by
  simp [Queued, start, blocks]

/-- **A run serves the queue block by block.** -/
theorem Emits.queued (hg : g.Consistent) (hl : g.Listed) {t t' : Traversal} {new : List String}
    (h : Emits t new t') : ∀ {out : List String}, Invariant g root out [] t →
      Queued g root out t → Queued g root (out ++ new) t' := by
  induction h with
  | stay t => intro out _ hq; rwa [List.append_nil]
  | @step t t' t'' c new hnext _ ih =>
    intro out hinv hq
    obtain ⟨rest, hqueue, hqueue'⟩ := next_queue hg hl hinv hq hnext
    have hqueued : Queued g root (out ++ [c]) t' := by
      rw [Queued, hqueue', blocks_concat, ← List.append_assoc (starts g root), ← hq, hqueue]
      simp
    have hrest := ih (next_invariant hg hinv hnext) hqueued
    rwa [List.append_assoc, List.singleton_append] at hrest

/-- **What is emitted.** A traversal emits its start nodes, followed by the block of each name that
it emits. -/
theorem order_eq (hg : g.Consistent) (hl : g.Listed) (root : Option String) :
    order g root = starts g root ++ blocks g root [] (order g root) := by
  obtain ⟨t, hrun, hend, -⟩ := order_emits hg root
  have hq := hrun.queued hg hl (start_invariant hg root) (start_queued g root)
  rwa [Queued, hend, List.append_nil, List.nil_append] at hq

end Traversal

end Provision
