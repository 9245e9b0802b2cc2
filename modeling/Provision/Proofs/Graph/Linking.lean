import Provision.Proofs.Graph.Emission
import Provision.Proofs.Registry

/-!
# The two tables of a graph are written in one pass

`build` says of each table what it holds. Read once, from the first target to the last one, an index
gives the same graph: both tables start with an empty list under each name, and each reference to a
declared name puts the dependency into the list of the target and the target into the list of the
dependency (`link`). As a reference is written into both tables or into none, they hold the same
edges, equally many, each table in the order in which the index has them.

> `linked_eq_build`: one pass over the index writes the graph;
> `build_transposes`: what the two tables hold, and how they agree.
-/

namespace Provision

/-! ## Lists that grow in a registry -/

namespace Registry

/-- Puts a name at the end of the list under another name, if there is one. -/
def append (r : Registry (List String)) (k x : String) : Registry (List String) :=
  match r.get? k with
  | none => r
  | some l => r.insert k (l ++ [x])

/-- Puts one name after another at the end of the list under its partner. -/
def appendAll (r : Registry (List String)) (l : List (String × String)) : Registry (List String) :=
  l.foldl (fun r e => r.append e.1 e.2) r

/-- How many names the lists hold, repeated ones counted. -/
def total (r : Registry (List String)) : Nat := r.values.flatten.length

/-- Appending to an entry adds no name. -/
@[simp] theorem keys_append (r : Registry (List String)) (k x : String) :
    (r.append k x).keys = r.keys := by
  rw [append]
  cases hk : r.get? k with
  | none => rfl
  | some l => rw [keys_insert, if_pos ((r.mem_keys_iff k).mpr ⟨l, hk⟩)]

/-- Appending touches one entry and leaves the others as they are. -/
theorem get?_append (r : Registry (List String)) (k x j : String) :
    (r.append k x).get? j = if k = j then (r.get? j).map (· ++ [x]) else r.get? j := by
  rw [append]
  cases hk : r.get? k with
  | none =>
    by_cases hj : k = j
    · rw [if_pos hj, ← hj, hk]
      rfl
    · rw [if_neg hj]
  | some l =>
    rw [get?_insert]
    by_cases hj : k = j
    · rw [if_pos hj, if_pos hj.symm, ← hj, hk]
      rfl
    · rw [if_neg hj, if_neg (Ne.symm hj)]

@[simp] theorem keys_appendAll (l : List (String × String)) :
    ∀ r : Registry (List String), (r.appendAll l).keys = r.keys := by
  induction l with
  | nil => exact fun _ => rfl
  | cons e l ih => exact fun r => (ih (r.append e.1 e.2)).trans (r.keys_append e.1 e.2)

/-- Each list ends with what has been put there, in order. -/
theorem get?_appendAll (l : List (String × String)) (j : String) :
    ∀ r : Registry (List String), (r.appendAll l).get? j =
      (r.get? j).map (· ++ (l.filter (·.1 == j)).map Prod.snd) := by
  induction l with
  | nil =>
    intro r
    simp [appendAll]
  | cons e l ih =>
    intro r
    have hstep : r.appendAll (e :: l) = (r.append e.1 e.2).appendAll l := rfl
    rw [hstep, ih, get?_append]
    by_cases hj : e.1 = j
    · simp [hj, Function.comp_def]
    · simp [hj]

/-- Appending to a name that is there counts one more entry in all. -/
theorem total_append {r : Registry (List String)} {k : String} (hk : k ∈ r.keys) (x : String) :
    (r.append k x).total = r.total + 1 := by
  obtain ⟨l, hl⟩ := (r.mem_keys_iff k).mp hk
  have hupsert : ∀ entries : List (String × List String), find k entries = some l →
      ((upsert k (l ++ [x]) entries).map Prod.snd).flatten.length =
        (entries.map Prod.snd).flatten.length + 1 := by
    intro entries
    induction entries with
    | nil => intro h; simp [find] at h
    | cons e entries ih =>
      intro h
      by_cases he : e.1 = k
      · rw [find, if_pos he] at h
        simp [upsert, he, Option.some.inj h]
        omega
      · rw [find, if_neg he] at h
        simp only [upsert, he, if_false, List.map_cons, List.flatten_cons, List.length_append, ih h]
        omega
  rw [append, hl, total, total]
  exact hupsert r.entries hl

/-- A list of appends to names that are there counts as many entries more. -/
theorem total_appendAll {l : List (String × String)} : ∀ {r : Registry (List String)},
    (∀ e ∈ l, e.1 ∈ r.keys) → (r.appendAll l).total = r.total + l.length := by
  induction l with
  | nil => exact fun _ => rfl
  | cons e l ih =>
    intro r h
    have hrest := ih (r := r.append e.1 e.2) fun e' he' => by
      rw [keys_append]
      exact h e' (List.mem_cons_of_mem _ he')
    rw [total_append (h e (List.mem_cons_self ..))] at hrest
    rw [List.length_cons]
    exact hrest.trans (by omega)

/-! ### Empty lists -/

/-- The registry that results from writing an empty list under one name after another. -/
def blank (names : List String) : Registry (List String) := ofList (names.map fun n => (n, []))

/-- The table before the first edge: every name, nothing listed. -/
theorem entries_blank {names : List String} (h : names.Nodup) :
    (blank names).entries = names.map fun n => (n, []) :=
  entries_ofList_of_nodup (by simpa [Function.comp_def] using h)

theorem keys_blank {names : List String} (h : names.Nodup) : (blank names).keys = names := by
  simp [keys, entries_blank h, Function.comp_def]

theorem get?_blank {names : List String} (h : names.Nodup) {n : String} (hn : n ∈ names) :
    (blank names).get? n = some [] := by
  rw [get?_eq_some_iff, entries_blank h]
  exact List.mem_map_of_mem hn

theorem total_blank {names : List String} (h : names.Nodup) : (blank names).total = 0 := by
  simp [total, values, entries_blank h, Function.comp_def]

end Registry

namespace Graph

/-! ## One pass over the index -/

/-- Writes a reference of a target into both tables, if it is one to a declared name. -/
def link (index : DependencyIndex) (target : String) (g : Graph) (dependency : String) : Graph :=
  if index.contains dependency then
    { dependencies := g.dependencies.append target dependency
      dependents := g.dependents.append dependency target }
  else g

/-- The graph that is written by reading the index once: first its names, then the references of
one target after another. -/
def linked (index : DependencyIndex) : Graph :=
  index.entries.foldl (fun g e => e.2.foldl (link index e.1) g)
    ⟨.blank index.keys, .blank index.keys⟩

/-- The references of an index to declared names, each behind its target. -/
def references (index : DependencyIndex) : List (String × String) :=
  (index.entries.flatMap fun e => e.2.map (Prod.mk e.1)).filter fun r => index.contains r.2

/-- Each table is written by itself: the pass goes through the references to declared names. -/
theorem linked_eq (index : DependencyIndex) : linked index =
    { dependencies := (Registry.blank index.keys).appendAll (references index)
      dependents := (Registry.blank index.keys).appendAll ((references index).map Prod.swap) } := by
  have hboth : ∀ (l : List (String × String)) (g : Graph),
      l.foldl (fun g r => { dependencies := g.dependencies.append r.1 r.2
                            dependents := g.dependents.append r.2 r.1 }) g =
        { dependencies := g.dependencies.appendAll l
          dependents := g.dependents.appendAll (l.map Prod.swap) } := by
    intro l
    induction l with
    | nil => exact fun _ => rfl
    | cons r l ih => exact fun g => ih _
  rw [← hboth _ ⟨.blank index.keys, .blank index.keys⟩, references, List.foldl_filter,
    List.foldl_flatMap, linked]
  simp only [List.foldl_map]
  rfl

/-! ## What the pass writes -/

/-- Of entries with different names only the one of a name counts towards what is taken there. -/
theorem flatMap_of_name {f : List String → List String} (t : String) :
    ∀ {entries : List (String × List String)}, (entries.map Prod.fst).Nodup →
      (entries.flatMap fun e => if e.1 = t then f e.2 else []) =
        ((Registry.find t entries).map f).getD [] := by
  intro entries
  induction entries with
  | nil => exact fun _ => rfl
  | cons e entries ih =>
    intro hnodup
    rw [List.map_cons, List.nodup_cons] at hnodup
    rw [List.flatMap_cons, ih hnodup.2]
    by_cases he : e.1 = t
    · have hrest : Registry.find t entries = none := by
        rw [← Option.not_isSome_iff_eq_none, Registry.find_isSome]
        exact he ▸ hnodup.1
      simp [Registry.find, he, hrest]
    · simp [Registry.find, he]

/-- Behind a target stand the references that it makes. -/
theorem references_of_target {index : DependencyIndex} {t : String} {deps : List String}
    (h : index.get? t = some deps) :
    ((references index).filter (·.1 == t)).map Prod.snd = edges index deps := by
  have hentry : ∀ e : String × List String,
      (((e.2.map (Prod.mk e.1)).filter fun r => r.1 == t && index.contains r.2).map Prod.snd) =
        if e.1 = t then edges index e.2 else [] := by
    intro e
    by_cases he : e.1 = t
    · simp [he, edges, List.filter_map, Function.comp_def]
    · simp [he, List.filter_map, Function.comp_def]
  rw [references, List.filter_filter, List.filter_flatMap, List.map_flatMap,
    List.flatMap_congr fun e _ => hentry e, flatMap_of_name t index.nodup]
  rw [Registry.get?] at h
  rw [h, Option.map_some, Option.getD_some]

/-- In front of a declared name stand the targets that depend on it. -/
theorem references_to_name {index : DependencyIndex} {d : String} (hd : d ∈ index.keys) :
    ((references index).filter (·.2 == d)).map Prod.fst = dependentsIn index d := by
  rw [references, List.filter_filter, List.filter_flatMap, List.map_flatMap, dependentsIn]
  refine List.flatMap_congr fun e _ => ?_
  rw [List.filter_map, List.map_map]
  -- the guard has nothing to add for a name that is declared
  have hguard : ∀ x, (x == d && index.contains x) = (x == d) := by
    intro x
    by_cases hx : x = d
    · simp [hx, (index.contains_iff d).mpr hd]
    · simp [hx]
  simp only [Function.comp_def, hguard]

/-- **One pass over the index writes the graph.** -/
theorem linked_eq_build (index : DependencyIndex) : linked index = build index := by
  have hkeys : (Registry.blank index.keys).keys = index.keys := Registry.keys_blank index.keys_nodup
  rw [linked_eq, build, Graph.mk.injEq]
  constructor
  · refine Registry.eq_of_get?_eq (by simp [hkeys]) fun t ht => ?_
    rw [Registry.keys_appendAll, hkeys] at ht
    obtain ⟨deps, hdeps⟩ := (index.mem_keys_iff t).mp ht
    rw [Registry.get?_appendAll, Registry.get?_blank index.keys_nodup ht, Registry.get?_map, hdeps,
      Option.map_some, references_of_target hdeps, List.nil_append, Option.map_some]
  · refine Registry.eq_of_get?_eq (by simp [hkeys]) fun d hd => ?_
    rw [Registry.keys_appendAll, hkeys] at hd
    obtain ⟨deps, hdeps⟩ := (index.mem_keys_iff d).mp hd
    have hswap : (((references index).map Prod.swap).filter (·.1 == d)).map Prod.snd =
        ((references index).filter (·.2 == d)).map Prod.fst := by
      rw [List.filter_map, List.map_map]
      rfl
    rw [Registry.get?_appendAll, Registry.get?_blank index.keys_nodup hd, Registry.get?_map, hdeps,
      Option.map_some, hswap, references_to_name hd, List.nil_append, Option.map_some]

/-! ## The number of edges -/

/-- Both ends of an edge are nodes, since references to unknown names are left out. -/
theorem mem_keys_of_mem_references {index : DependencyIndex} {r : String × String}
    (h : r ∈ references index) : r.1 ∈ index.keys ∧ r.2 ∈ index.keys := by
  obtain ⟨hmem, hdeclared⟩ := List.mem_filter.mp h
  obtain ⟨e, he, hr⟩ := List.mem_flatMap.mp hmem
  obtain ⟨d, -, rfl⟩ := List.mem_map.mp hr
  exact ⟨List.mem_map_of_mem he, (index.contains_iff d).mp hdeclared⟩

/-- Each table holds one name for each reference that the pass writes. -/
theorem total_build (index : DependencyIndex) :
    (build index).dependencies.total = (references index).length ∧
      (build index).dependents.total = (references index).length := by
  have hkeys : (Registry.blank index.keys).keys = index.keys := Registry.keys_blank index.keys_nodup
  have hempty : (Registry.blank index.keys).total = 0 := Registry.total_blank index.keys_nodup
  rw [← linked_eq_build, linked_eq]
  constructor
  · rw [Registry.total_appendAll fun r hr => ?_, hempty, Nat.zero_add]
    exact hkeys.symm ▸ (mem_keys_of_mem_references hr).1
  · rw [Registry.total_appendAll fun r hr => ?_, hempty, Nat.zero_add, List.length_map]
    obtain ⟨r', hr', rfl⟩ := List.mem_map.mp hr
    exact hkeys.symm ▸ (mem_keys_of_mem_references hr').2

/-! ## The tables -/

/-- Whatever stands in a list of one of the tables is declared. -/
theorem declared_of_mem_build {index : DependencyIndex} {e : String × List String}
    (he : e ∈ (build index).dependencies.entries ∨ e ∈ (build index).dependents.entries) :
    e.1 ∈ index.keys ∧ ∀ n ∈ e.2, n ∈ index.keys := by
  simp only [build, Registry.entries_map, List.mem_map] at he
  rcases he with ⟨f, hf, rfl⟩ | ⟨f, hf, rfl⟩
  · have hname : f.1 ∈ index.keys := List.mem_map_of_mem hf
    exact ⟨hname, fun n hn => (index.contains_iff n).mp (List.mem_filter.mp hn).2⟩
  · have hname : f.1 ∈ index.keys := List.mem_map_of_mem hf
    refine ⟨hname, fun n hn => ?_⟩
    obtain ⟨f', hf', hn⟩ := List.mem_flatMap.mp hn
    obtain ⟨-, -, rfl⟩ := List.mem_map.mp hn
    exact List.mem_map_of_mem hf'

/-- **The two tables of a graph are each the other one read backwards.** Whatever the index refers
to: its graph is the one that a single pass over the index writes. In both tables the declared
names stand in order, and nothing else stands anywhere. A target stands among the dependents of a
name as often as the name stands among its dependencies, which is as often as the target declares
it. The dependencies of a target keep the order in which they are declared; the dependents of a name
follow the order of declaration, repeated ones next to each other. There are as many edges as names
in the lists of either table. -/
theorem build_transposes (index : DependencyIndex) :
    let g := build index
    linked index = g ∧
    (g.nodes = index.keys ∧ g.dependencies.keys = index.keys ∧ g.dependents.keys = index.keys) ∧
    (∀ e, e ∈ g.dependencies.entries ∨ e ∈ g.dependents.entries →
      e.1 ∈ index.keys ∧ ∀ n ∈ e.2, n ∈ index.keys) ∧
    (∀ d ∈ g.nodes, ∀ t ∈ g.nodes,
      (g.dependentsOf d).count t = (g.dependenciesOf t).count d ∧
      (g.dependenciesOf t).count d = ((index.get? t).getD []).count d) ∧
    (∀ t ∈ g.nodes, g.dependenciesOf t = ((index.get? t).getD []).filter (· ∈ index.keys)) ∧
    (∀ d ∈ g.nodes, g.dependentsOf d =
      index.keys.flatMap fun t => List.replicate (((index.get? t).getD []).count d) t) ∧
    g.edgeCount = g.dependencies.total ∧ g.edgeCount = g.dependents.total := by
  intro g
  have hnodes : g.nodes = index.keys := nodes_build index
  have hwritten : ∀ t, g.dependenciesOf t =
      ((index.get? t).getD []).filter (· ∈ index.keys) := by
    intro t
    rw [dependenciesOf_build, edges]
    refine List.filter_congr fun d _ => ?_
    rw [Bool.eq_iff_iff, decide_eq_true_iff, Registry.contains_iff]
  refine ⟨linked_eq_build index, ⟨hnodes, keys_dependencies index, keys_dependents index⟩,
    fun e he => declared_of_mem_build he, fun d hd t _ => ⟨?_, ?_⟩, fun t _ => hwritten t,
    fun d hd => ?_, rfl, (total_build index).1.trans (total_build index).2.symm⟩
  · exact (build_consistent index).transposed t d
  · rw [hwritten, List.count_filter (by simpa using hnodes ▸ hd)]
  · rw [dependentsOf_build (hnodes ▸ hd), dependentsIn_eq]

/-- A name that is declared twice, a reference to itself and one to a name that is not declared. -/
example :
    let g := build ⟨[("app", ["base", "gone", "app", "base"]), ("base", []), ("tool", ["base"])],
      by decide⟩
    g.dependenciesOf "app" = ["base", "app", "base"] ∧
      g.dependentsOf "base" = ["app", "app", "tool"] ∧ g.edgeCount = 4 := by
  decide

end Graph

end Provision
