import Mathlib.Data.List.MinMax
import Mathlib.Order.Nat
import Provision.Proofs.Graph.Closure

/-!
# Traversals emit layer by layer

The level of a name is the length of the longest way to it from a start node, counted in covered
dependencies. No traversal keeps levels. That they never decrease along the order of emission
follows from the blocks in which names are freed: a name is freed by the covered dependency that
is emitted last, so names come in the order of these dependencies, and the last dependency of a
name has the highest level among them.

> `place_lt_iff`: names come in the order of their last dependencies, then as they are declared;
> `level_le`: levels never decrease;
> `order_layered`: the exact order of emission.
-/

namespace Provision.Traversal

variable {g : Graph} {root : Option String}

/-! ## The largest value of a list -/

/-- The largest value of the names of a list, zero if there are none. -/
def largest (f : String → Nat) (l : List String) : Nat := (l.map f).foldr max 0

theorem le_largest {f : String → Nat} {l : List String} {d : String} (hd : d ∈ l) :
    f d ≤ largest f l :=
  List.le_max_of_le (List.mem_map_of_mem hd) (Nat.le_refl _)

theorem largest_le {f : String → Nat} {l : List String} {k : Nat} (h : ∀ d ∈ l, f d ≤ k) :
    largest f l ≤ k := by
  refine List.max_le_of_forall_le _ k fun x hx => ?_
  obtain ⟨d, hd, rfl⟩ := List.mem_map.mp hx
  exact h d hd

theorem largest_congr {f f' : String → Nat} {l : List String} (h : ∀ d ∈ l, f d = f' d) :
    largest f l = largest f' l := by
  rw [largest, largest, List.map_congr_left h]

/-! ## Levels -/

/-- The dependencies of a name that are covered. -/
def coveredDependencies (g : Graph) (root : Option String) (n : String) : List String :=
  (g.dependenciesOf n).filter (scope g root).contains

/-- The dependencies that a traversal counts are those within its reach. -/
theorem mem_coveredDependencies_iff (hg : g.Consistent) (n d : String) :
    d ∈ coveredDependencies g root n ↔ d ∈ g.dependenciesOf n ∧ Covers g root d := by
  rw [coveredDependencies, List.mem_filter, List.contains_iff_mem, mem_scope_iff_covers hg]

/-- A node waits for nothing when all its counted dependencies are out. -/
theorem waiting_eq_zero_iff_covered {out : List String} {n : String} :
    waiting g root out n = 0 ↔ ∀ d ∈ coveredDependencies g root n, d ∈ out := by
  simp only [waiting_eq_zero_iff, coveredDependencies, List.mem_filter, List.contains_iff_mem,
    and_imp]

/-- The level of a name, as long as it is at most `fuel`. -/
def levelWithin (g : Graph) (root : Option String) : Nat → String → Nat
  | 0, _ => 0
  | fuel + 1, n =>
    if isStart g root n then 0
    else 1 + largest (levelWithin g root fuel) (coveredDependencies g root n)

/-- The level of a name: zero for a start node, and for any other name one more than the highest
level of its covered dependencies. -/
def level (g : Graph) (root : Option String) : String → Nat := levelWithin g root g.nodeCount

/-! ## Places -/

/-- The place of a name among those that are emitted. -/
def place (g : Graph) (root : Option String) (n : String) : Nat := (order g root).idxOf n

/-- The place of the covered dependency of a name that is emitted last. -/
def lastPlace (g : Graph) (root : Option String) (n : String) : Nat :=
  largest (place g root) (coveredDependencies g root n)

theorem order_nodup_of_consistent (hg : g.Consistent) (root : Option String) :
    (order g root).Nodup := by
  obtain ⟨t, -, -, hinv⟩ := order_emits hg root
  exact hinv.out_nodup hg

/-- The place of a node is the number of nodes before it. -/
theorem place_of_split (hg : g.Consistent) {before after : List String} {c : String}
    (h : order g root = before ++ c :: after) : place g root c = before.length := by
  have hnodup := order_nodup_of_consistent hg root
  rw [h] at hnodup
  have hc : c ∉ before := fun hc =>
    (List.nodup_append.mp hnodup).2.2 c hc c (List.mem_cons_self ..) rfl
  rw [place, h, List.idxOf_append_of_notMem hc, List.idxOf_cons_self, Nat.add_zero]

/-- What has been emitted has an earlier place. -/
theorem place_le_of_mem_before (hg : g.Consistent) {before after : List String} {c d : String}
    (h : order g root = before ++ c :: after) (hd : d ∈ before ++ [c]) :
    place g root d ≤ before.length := by
  rcases List.mem_append.mp hd with hd | hd
  · rw [place, h, List.idxOf_append_of_mem hd]
    exact Nat.le_of_lt (List.idxOf_lt_length_of_mem hd)
  · rw [List.mem_singleton.mp hd, place_of_split hg h]

/-- A node of the graph is emitted later exactly when it is not a start. -/
theorem notMem_starts_iff {n : String} (hn : n ∈ g.nodes) :
    n ∉ starts g root ↔ isStart g root n = false := by
  rw [starts_eq, List.mem_filter, and_iff_right hn, Bool.not_eq_true]

/-! ## The last dependency of a name -/

/-- What frees a name is the covered dependency that is emitted last. -/
theorem last_of_mem_freed (hg : g.Consistent) {before after : List String} {c n : String}
    (h : order g root = before ++ c :: after) (hn : n ∈ freed g root before c) :
    c ∈ coveredDependencies g root n ∧ lastPlace g root n = before.length := by
  obtain ⟨-, -, -, hwait, hzero⟩ := mem_freed_iff.mp hn
  rw [Ne, waiting_eq_zero_iff_covered] at hwait
  rw [waiting_eq_zero_iff_covered] at hzero
  have hc : c ∈ coveredDependencies g root n := by
    push Not at hwait
    obtain ⟨d, hd, hbefore⟩ := hwait
    have hdc := (List.mem_append.mp (hzero d hd)).resolve_left hbefore
    exact List.mem_singleton.mp hdc ▸ hd
  refine ⟨hc, Nat.le_antisymm (largest_le fun d hd => ?_) ?_⟩
  · exact place_le_of_mem_before hg h (hzero d hd)
  · rw [← place_of_split hg h]
    exact le_largest hc

/-- A name that is emitted, and is no start node, has been freed. -/
theorem exists_freed (hg : g.Consistent) (hl : g.Listed) {n : String} (hn : n ∈ order g root)
    (hstart : n ∉ starts g root) :
    ∃ before c after, order g root = before ++ c :: after ∧ n ∈ freed g root before c := by
  rw [order_eq hg hl root] at hn
  obtain ⟨before, c, after, hsplit, hfreed⟩ :=
    exists_of_mem_blocks ((List.mem_append.mp hn).resolve_left hstart)
  rw [List.nil_append] at hfreed
  exact ⟨before, c, after, hsplit, hfreed⟩

/-- Names come in the order of their last dependencies, and names with the same one as they are
declared. -/
def Sooner (g : Graph) (root : Option String) (a b : String) : Prop :=
  lastPlace g root a < lastPlace g root b ∨
    lastPlace g root a = lastPlace g root b ∧ g.nodes.idxOf a < g.nodes.idxOf b

/-- The nodes that one emission frees share their last dependency, so they come as declared. -/
theorem freed_pairwise (hg : g.Consistent) {before after : List String} {c : String}
    (h : order g root = before ++ c :: after) :
    (freed g root before c).Pairwise (Sooner g root) := by
  have hnodes := (pairwise_idxOf g.dependencies.nodup).sublist
    (List.filter_sublist : (freed g root before c).Sublist g.nodes)
  refine hnodes.imp_of_mem fun {a b} ha hb hab => Or.inr ⟨?_, hab⟩
  rw [(last_of_mem_freed hg h ha).2, (last_of_mem_freed hg h hb).2]

/-- Blocks come in the order of the names that they are the blocks of. -/
theorem blocks_pairwise (hg : g.Consistent) {rest : List String} : ∀ {out : List String},
    order g root = out ++ rest → (blocks g root out rest).Pairwise (Sooner g root) := by
  induction rest with
  | nil => intro out _; exact .nil
  | cons c rest ih =>
    intro out h
    have hrest : order g root = (out ++ [c]) ++ rest := by simpa using h
    refine List.pairwise_append.mpr ⟨freed_pairwise hg h, ih hrest, fun a ha b hb => Or.inl ?_⟩
    obtain ⟨former, c', later, rfl, hfreed⟩ := exists_of_mem_blocks hb
    have hsplit : order g root = (out ++ [c] ++ former) ++ c' :: later := by simpa using hrest
    rw [(last_of_mem_freed hg h ha).2, (last_of_mem_freed hg hsplit hfreed).2]
    simp only [List.length_append, List.length_singleton]
    omega

/-- Of two nodes that are no starts, the one emitted earlier is sooner by its last dependency or,
with the same one, by declaration. -/
theorem sooner_of_place_lt (hg : g.Consistent) (hl : g.Listed) {a b : String}
    (ha : a ∈ order g root) (hb : b ∈ order g root) (hsa : a ∉ starts g root)
    (hsb : b ∉ starts g root) (h : place g root a < place g root b) : Sooner g root a b := by
  have heq := order_eq hg hl root
  rw [place, place, heq, List.idxOf_append_of_notMem hsa, List.idxOf_append_of_notMem hsb] at h
  rw [heq] at ha hb
  exact rel_of_idxOf_lt (blocks_pairwise hg (List.nil_append _).symm)
    ((List.mem_append.mp ha).resolve_left hsa) ((List.mem_append.mp hb).resolve_left hsb)
    (Nat.lt_of_add_lt_add_left h)

/-- **The order of emission.** Of two names that are no start nodes, the one whose last dependency
is emitted earlier comes first; if that is the same one, the one that is declared earlier does. -/
theorem place_lt_iff (hg : g.Consistent) (hl : g.Listed) {a b : String}
    (ha : a ∈ order g root) (hb : b ∈ order g root) (hsa : a ∉ starts g root)
    (hsb : b ∉ starts g root) : place g root a < place g root b ↔ Sooner g root a b := by
  refine ⟨sooner_of_place_lt hg hl ha hb hsa hsb, fun hab => ?_⟩
  rcases Nat.lt_trichotomy (place g root a) (place g root b) with hlt | heq | hgt
  · exact hlt
  · obtain rfl := (List.idxOf_inj ha).mp heq
    rw [Sooner] at hab
    omega
  · have hba := sooner_of_place_lt hg hl hb ha hsb hsa hgt
    rw [Sooner] at hab hba
    omega

/-- Start nodes come before all others. -/
theorem place_lt_of_starts (hg : g.Consistent) (hl : g.Listed) {a b : String}
    (ha : a ∈ starts g root) (hb : b ∉ starts g root) : place g root a < place g root b := by
  rw [place, place, order_eq hg hl root, List.idxOf_append_of_mem ha,
    List.idxOf_append_of_notMem hb]
  exact Nat.lt_of_lt_of_le (List.idxOf_lt_length_of_mem ha) (Nat.le_add_right _ _)

/-! ## Levels along the order of emission -/

theorem mem_nodes_of_mem_order (hg : g.Consistent) {n : String} (hn : n ∈ order g root) :
    n ∈ g.nodes := by
  obtain ⟨t, -, -, hinv⟩ := order_emits hg root
  exact mem_nodes_of_mem_scope hg (hinv.mem_scope hn)

/-- The covered dependencies of a name that is no start node are emitted before it. -/
theorem mem_order_and_place_lt (hg : g.Consistent) {n d : String} (hn : n ∈ order g root)
    (hstart : n ∉ starts g root) (hd : d ∈ coveredDependencies g root n) :
    d ∈ order g root ∧ place g root d < place g root n := by
  rw [mem_coveredDependencies_iff hg] at hd
  have hnot := (notMem_starts_iff (mem_nodes_of_mem_order hg hn)).mp hstart
  obtain ⟨before, after, hsplit, hbefore⟩ := precedes_of_covers hg hn hnot hd.1 hd.2
  refine ⟨hsplit ▸ List.mem_append_left _ hbefore, ?_⟩
  rw [place_of_split hg hsplit, place, hsplit, List.idxOf_append_of_mem hbefore]
  exact List.idxOf_lt_length_of_mem hbefore

/-- More fuel than the place of a name does not change its level. -/
theorem levelWithin_eq (hg : g.Consistent) : ∀ (fuel fuel' : Nat) {n : String},
    n ∈ order g root → place g root n < fuel → place g root n < fuel' →
      levelWithin g root fuel n = levelWithin g root fuel' n := by
  intro fuel
  induction fuel with
  | zero => intro fuel' n _ h; omega
  | succ fuel ih =>
    intro fuel' n hn h h'
    cases fuel' with
    | zero => omega
    | succ fuel' =>
      rw [levelWithin, levelWithin]
      by_cases hstart : isStart g root n
      · rw [if_pos hstart, if_pos hstart]
      · rw [if_neg hstart, if_neg hstart]
        refine congrArg (1 + ·) (largest_congr fun d hd => ?_)
        have hnot := (notMem_starts_iff (mem_nodes_of_mem_order hg hn)).mpr (by simpa using hstart)
        obtain ⟨hd, hlt⟩ := mem_order_and_place_lt hg hn hnot hd
        exact ih fuel' hd (by omega) (by omega)

/-- Places are smaller than the number of nodes. -/
theorem place_lt_nodeCount (hg : g.Consistent) {n : String} (hn : n ∈ order g root) :
    place g root n < g.nodeCount := by
  have hlen := (order_nodup_of_consistent hg root).length_le_of_subset
    fun _ => mem_nodes_of_mem_order hg
  rw [nodeCount_eq]
  exact Nat.lt_of_lt_of_le (List.idxOf_lt_length_of_mem hn) hlen

/-- **What levels are.** A start node has level zero, any other name that is emitted one more than
the highest level of its covered dependencies. -/
theorem level_eq (hg : g.Consistent) {n : String} (hn : n ∈ order g root) :
    level g root n = if isStart g root n then 0
      else 1 + largest (level g root) (coveredDependencies g root n) := by
  have hplace := place_lt_nodeCount hg hn
  have hunfold : levelWithin g root (g.nodeCount + 1) n = level g root n :=
    levelWithin_eq hg _ _ hn (Nat.lt_succ_of_lt hplace) hplace
  rw [← hunfold, levelWithin]
  rfl

/-- **Levels never decrease.** The induction is along the order of emission: the covered
dependencies of a name come no later than the last one of any later name. -/
theorem level_le (hg : g.Consistent) (hl : g.Listed) {a b : String} (ha : a ∈ order g root)
    (hb : b ∈ order g root) (hab : place g root a ≤ place g root b) :
    level g root a ≤ level g root b := by
  induction hk : place g root b using Nat.strong_induction_on generalizing a b with
  | _ k ih =>
    have hstart : a ∉ starts g root ↔ _ := notMem_starts_iff (mem_nodes_of_mem_order hg ha)
    have hstart' : b ∉ starts g root ↔ _ := notMem_starts_iff (mem_nodes_of_mem_order hg hb)
    by_cases hsa : a ∈ starts g root
    · have hzero : isStart g root a = true := by
        simpa using mt hstart.mpr (not_not.mpr hsa)
      rw [level_eq hg ha, if_pos hzero]
      exact Nat.zero_le _
    · have hsb : b ∉ starts g root := fun hsb =>
        absurd (place_lt_of_starts hg hl hsb hsa) (Nat.not_lt.mpr hab)
      have hlast : lastPlace g root a ≤ lastPlace g root b := by
        rcases Nat.lt_or_eq_of_le hab with hlt | heq
        · have hsooner := sooner_of_place_lt hg hl ha hb hsa hsb hlt
          rw [Sooner] at hsooner
          omega
        · rw [(List.idxOf_inj ha).mp heq]
      obtain ⟨before, c, after, hsplit, hfreed⟩ := exists_freed hg hl hb hsb
      obtain ⟨hc, hplace⟩ := last_of_mem_freed hg hsplit hfreed
      obtain ⟨hcout, hclt⟩ := mem_order_and_place_lt hg hb hsb hc
      rw [level_eq hg ha, level_eq hg hb, hstart.mp hsa, hstart'.mp hsb]
      refine Nat.add_le_add_left (Nat.le_trans (largest_le fun d hd => ?_) (le_largest hc)) 1
      refine ih (place g root c) (hk ▸ hclt) (mem_order_and_place_lt hg ha hsa hd).1 hcout ?_ rfl
      calc place g root d ≤ lastPlace g root a := le_largest hd
        _ ≤ lastPlace g root b := hlast
        _ = place g root c := by rw [hplace, place_of_split hg hsplit]

/-- **The exact order of emission.** Whatever the index refers to, and wherever the traversal
starts: with the level of a start node zero, and that of any other name emitted one more than the
highest level of its covered dependencies, names are emitted in the order of their levels. Of two
names that are no start nodes, the one whose covered dependency that is emitted last is emitted
earlier comes first; if that is the same one, the one that the index declares earlier does. -/
theorem order_layered (index : DependencyIndex) (root : Option String) :
    let g := Graph.build index
    (∀ n d, d ∈ coveredDependencies g root n ↔ d ∈ g.dependenciesOf n ∧ Covers g root d) ∧
    (∀ n ∈ order g root, level g root n =
      if isStart g root n then 0
      else 1 + largest (level g root) (coveredDependencies g root n)) ∧
    (order g root).Pairwise (fun a b => level g root a ≤ level g root b) ∧
    (∀ n ∈ order g root, isStart g root n = false →
      ∃ d ∈ coveredDependencies g root n, d ∈ order g root ∧
        lastPlace g root n = (order g root).idxOf d) ∧
    (∀ a ∈ order g root, ∀ b ∈ order g root, isStart g root a = false →
      isStart g root b = false →
        ((order g root).idxOf a < (order g root).idxOf b ↔
          lastPlace g root a < lastPlace g root b ∨
            lastPlace g root a = lastPlace g root b ∧
              index.keys.idxOf a < index.keys.idxOf b)) := by
  intro g
  have hg : g.Consistent := Graph.build_consistent index
  have hl : g.Listed := Graph.build_listed index
  have hnot : ∀ {n}, n ∈ order g root → isStart g root n = false → n ∉ starts g root :=
    fun hn => (notMem_starts_iff (mem_nodes_of_mem_order hg hn)).mpr
  refine ⟨mem_coveredDependencies_iff hg, fun n => level_eq hg, ?_, fun n hn hstart => ?_,
    fun a ha b hb hsa hsb => ?_⟩
  · refine (pairwise_idxOf (order_nodup_of_consistent hg root)).imp_of_mem fun ha hb hab => ?_
    exact level_le hg hl ha hb (Nat.le_of_lt hab)
  · obtain ⟨before, c, after, hsplit, hfreed⟩ := exists_freed hg hl hn (hnot hn hstart)
    obtain ⟨hc, hplace⟩ := last_of_mem_freed hg hsplit hfreed
    refine ⟨c, hc, (mem_order_and_place_lt hg hn (hnot hn hstart) hc).1, ?_⟩
    rw [hplace]
    exact (place_of_split hg hsplit).symm
  · have hnodes : g.nodes = index.keys := Graph.nodes_build index
    have hiff := place_lt_iff hg hl ha hb (hnot ha hsa) (hnot hb hsb)
    rwa [Sooner, hnodes] at hiff

/-- A name that is found early but waits for a long way comes after the names of lower levels. -/
example :
    let g := Graph.build ⟨[("late", ["base", "far"]), ("base", []), ("near", ["base"]),
      ("far", ["near"]), ("side", ["base"])], by decide⟩
    order g none = ["base", "near", "side", "far", "late"] ∧
      (order g none).map (level g none) = [0, 1, 1, 2, 3] := by
  decide

end Provision.Traversal
