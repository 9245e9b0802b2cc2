/-!
# Registries: maps that keep the order of first insertion

A configuration is read, listed and written in the order in which its author wrote
it, so every table of named things is a `Registry`: a list of entries whose names
are pairwise different. Writing a name again replaces the value and keeps the place.

> `keys_insert`: a new name goes to the end, a known name keeps its place;
> `get?_insert`: a look-up sees the last value written.

Mirrors the insertion-ordered maps of the program, of which it uses inserting, looking up and
walking over the entries.
-/

namespace Provision

universe u v

/-- A finite map from names to values, in order of first insertion. -/
structure Registry (α : Type u) where
  entries : List (String × α)
  nodup : (entries.map Prod.fst).Nodup
deriving DecidableEq

namespace Registry

variable {α : Type u} {β : Type v}

/-! ## Entry lists -/

/-- Puts a value under a name: in place if the name is there, else at the end. -/
def upsert (k : String) (v : α) : List (String × α) → List (String × α)
  | [] => [(k, v)]
  | e :: rest => if e.1 = k then (k, v) :: rest else e :: upsert k v rest

/-- The value under a name. -/
def find (k : String) : List (String × α) → Option α
  | [] => none
  | e :: rest => if e.1 = k then some e.2 else find k rest

/-- Inserting keeps the place of a name that is there and puts a new name last. -/
theorem upsert_names (k : String) (v : α) (l : List (String × α)) :
    (upsert k v l).map Prod.fst =
      if k ∈ l.map Prod.fst then l.map Prod.fst else l.map Prod.fst ++ [k] := by
  induction l with
  | nil => simp [upsert]
  | cons e rest ih =>
    by_cases h : e.1 = k
    · simp [upsert, h]
    · have h' : ¬ k = e.1 := fun e' => h e'.symm
      simp only [upsert, h, if_false, List.map_cons, ih, List.mem_cons, h', false_or]
      split <;> simp_all

/-- Names stay distinct when a value is inserted. -/
theorem upsert_nodup (k : String) (v : α) {l : List (String × α)}
    (h : (l.map Prod.fst).Nodup) : ((upsert k v l).map Prod.fst).Nodup := by
  rw [upsert_names]
  split
  · exact h
  · next hk =>
    refine List.nodup_append.2 ⟨h, by simp, ?_⟩
    intro a ha b hb
    rw [List.mem_singleton] at hb
    subst hb
    exact fun e => hk (e ▸ ha)

/-- A look-up after inserting sees the new value under its name and nothing else changed. -/
theorem find_upsert (k j : String) (v : α) (l : List (String × α)) :
    find j (upsert k v l) = if j = k then some v else find j l := by
  induction l with
  | nil =>
    by_cases h : j = k
    · simp [upsert, find, h]
    · have h' : ¬ k = j := fun e => h e.symm
      simp [upsert, find, h, h']
  | cons e rest ih =>
    by_cases h : e.1 = k
    · by_cases hj : j = k
      · simp [upsert, h, find, hj]
      · have h' : ¬ k = j := fun e => hj e.symm
        simp [upsert, h, find, hj, h']
    · by_cases he : e.1 = j
      · have hj : ¬ j = k := fun e' => h (he.trans e')
        simp [upsert, find, he, hj]
      · simp [upsert, h, find, he, ih]

/-- A name is found exactly when it is listed. -/
theorem find_isSome (k : String) (l : List (String × α)) :
    (find k l).isSome ↔ k ∈ l.map Prod.fst := by
  induction l with
  | nil => simp [find]
  | cons e rest ih =>
    by_cases h : e.1 = k
    · simp [find, h]
    · have h' : ¬ k = e.1 := fun e' => h e'.symm
      simpa [find, h, h'] using ih

/-- With distinct names, an entry is found exactly when it is listed. -/
theorem find_eq_some_iff (k : String) (v : α) {l : List (String × α)}
    (h : (l.map Prod.fst).Nodup) : find k l = some v ↔ (k, v) ∈ l := by
  induction l with
  | nil => simp [find]
  | cons e rest ih =>
    rw [List.map_cons, List.nodup_cons] at h
    by_cases he : e.1 = k
    · have hrest : (k, v) ∉ rest := fun hm => h.1 (he ▸ List.mem_map_of_mem hm)
      rw [find, if_pos he, Option.some.injEq, List.mem_cons, or_iff_left hrest, Prod.ext_iff]
      exact ⟨fun hv => ⟨he.symm, hv.symm⟩, fun hv => hv.2.symm⟩
    · have hhead : (k, v) ≠ e := fun hm => he (congrArg Prod.fst hm).symm
      rw [find, if_neg he, ih h.2, List.mem_cons, or_iff_right hhead]

/-! ## The map -/

/-- The registry without entries. -/
def empty : Registry α := ⟨[], List.nodup_nil⟩

instance : EmptyCollection (Registry α) := ⟨empty⟩
instance : Inhabited (Registry α) := ⟨empty⟩

/-- The names, in order. -/
def keys (r : Registry α) : List String := r.entries.map Prod.fst

/-- The values, in the order of their names. -/
def values (r : Registry α) : List α := r.entries.map Prod.snd

/-- How many names there are. -/
def size (r : Registry α) : Nat := r.entries.length

/-- Whether there is no name. -/
def isEmpty (r : Registry α) : Bool := r.entries.isEmpty

/-- The value under a name. -/
def get? (r : Registry α) (k : String) : Option α := find k r.entries

/-- Whether a name is there. -/
def contains (r : Registry α) (k : String) : Bool := (r.get? k).isSome

/-- Puts a value under a name; a known name keeps its place. -/
def insert (r : Registry α) (k : String) (v : α) : Registry α :=
  ⟨upsert k v r.entries, upsert_nodup k v r.nodup⟩

/-- Takes a name away. -/
def erase (r : Registry α) (k : String) : Registry α :=
  ⟨r.entries.filter fun e => e.1 ≠ k, r.nodup.sublist (List.filter_sublist.map Prod.fst)⟩

/-- The registry that results from writing the entries one after another. -/
def ofList (l : List (String × α)) : Registry α :=
  l.foldl (fun r e => r.insert e.1 e.2) empty

/-- The same names, with values computed from name and value. -/
def map (f : String → α → β) (r : Registry α) : Registry β :=
  ⟨r.entries.map fun e => (e.1, f e.1 e.2), by
    have h : (r.entries.map fun e => (e.1, f e.1 e.2)).map Prod.fst = r.entries.map Prod.fst := by
      rw [List.map_map]; rfl
    rw [h]; exact r.nodup⟩

/-! ## What the operations do to names and look-ups -/

@[simp] theorem keys_empty : (empty : Registry α).keys = [] := rfl

@[simp] theorem get?_empty (k : String) : (empty : Registry α).get? k = none := rfl

theorem keys_nodup (r : Registry α) : r.keys.Nodup := r.nodup

theorem keys_insert (r : Registry α) (k : String) (v : α) :
    (r.insert k v).keys = if k ∈ r.keys then r.keys else r.keys ++ [k] :=
  upsert_names k v r.entries

theorem get?_insert (r : Registry α) (k j : String) (v : α) :
    (r.insert k v).get? j = if j = k then some v else r.get? j :=
  find_upsert k j v r.entries

theorem contains_iff (r : Registry α) (k : String) : r.contains k = true ↔ k ∈ r.keys :=
  find_isSome k r.entries

/-- What a registry holds under a name is one of its entries. -/
theorem get?_eq_some_iff (r : Registry α) (k : String) (v : α) :
    r.get? k = some v ↔ (k, v) ∈ r.entries :=
  find_eq_some_iff k v r.nodup

theorem mem_keys_iff (r : Registry α) (k : String) : k ∈ r.keys ↔ ∃ v, r.get? k = some v := by
  rw [← contains_iff, contains, Option.isSome_iff_exists]

theorem get?_eq_none_iff (r : Registry α) (k : String) : r.get? k = none ↔ k ∉ r.keys := by
  rw [← contains_iff, contains, Bool.not_eq_true, Option.isSome_eq_false_iff,
    Option.isNone_iff_eq_none]

theorem size_eq_length_keys (r : Registry α) : r.size = r.keys.length := by simp [size, keys]

@[simp] theorem entries_map (f : String → α → β) (r : Registry α) :
    (r.map f).entries = r.entries.map fun e => (e.1, f e.1 e.2) := rfl

@[simp] theorem keys_map (f : String → α → β) (r : Registry α) : (r.map f).keys = r.keys := by
  simp [keys, map, Function.comp_def]

/-- A look-up finds the mapped value. -/
theorem get?_map (f : String → α → β) (r : Registry α) (k : String) :
    (r.map f).get? k = (r.get? k).map (f k) := by
  have h : ∀ l : List (String × α),
      find k (l.map fun e => (e.1, f e.1 e.2)) = (find k l).map (f k) := by
    intro l
    induction l with
    | nil => rfl
    | cons e rest ih =>
      by_cases he : e.1 = k
      · simp [find, he]
      · simp [find, he, ih]
  exact h r.entries

end Registry

end Provision
