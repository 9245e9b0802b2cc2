import Mathlib.Data.List.Induction
import Mathlib.Data.List.OfFn
import Provision.Registry
import Provision.Proofs.Distinct

/-!
# What is written into a registry, and what is computed from it

Entries are written one after another: each name keeps the place where it is written first and
the value that is written last. Values may be computed from a registry before or after its
entries are written: names, places and look-ups do not depend on values.

> `keys_ofList`, `get?_ofList_eq_some_iff`: which places and which values are left;
> `map_insert`, `map_erase`, `map_ofList`, `map_ofNames`: writing and computing commute.
-/

namespace Provision.Registry

variable {α β γ : Type}

/-- A registry is determined by its entries; that the names are distinct is a proof. -/
theorem eq_of_entries_eq {r s : Registry α} (h : r.entries = s.entries) : r = s := by
  cases r
  cases s
  simpa using h

/-- The value at a place stands under the name at this place. -/
theorem get?_of_getElem?_eq {r : Registry α} {i : Nat} {e : String × α}
    (h : r.entries[i]? = some e) : r.get? e.1 = some e.2 :=
  (r.get?_eq_some_iff e.1 e.2).mpr (List.mem_of_getElem? h)

/-- A registry is its names in order, with the value under each of them. -/
theorem eq_of_get?_eq {r s : Registry α} (hkeys : r.keys = s.keys)
    (hvalues : ∀ k ∈ r.keys, r.get? k = s.get? k) : r = s := by
  refine eq_of_entries_eq (List.ext_getElem? fun i => ?_)
  have hname : (r.entries[i]?).map Prod.fst = (s.entries[i]?).map Prod.fst := by
    rw [← List.getElem?_map, ← List.getElem?_map]
    exact congrArg (·[i]?) hkeys
  cases hr : r.entries[i]? with
  | none => simpa [hr, eq_comm] using hname
  | some e =>
    rw [hr, Option.map_some, eq_comm, Option.map_eq_some_iff] at hname
    obtain ⟨e', hs, hfst⟩ := hname
    have hvalue := hvalues e.1 (List.mem_map_of_mem (List.mem_of_getElem? hr))
    rw [get?_of_getElem?_eq hr, ← hfst, get?_of_getElem?_eq hs, Option.some.injEq] at hvalue
    rw [hs, Option.some.injEq]
    exact Prod.ext hfst.symm hvalue

/-! ## Writing entries one after another -/

/-- After erasing a name only that name is unknown. -/
theorem get?_erase (r : Registry α) (k j : String) :
    (r.erase k).get? j = if j = k then none else r.get? j := by
  refine Option.ext fun v => ?_
  rw [get?_eq_some_iff, erase, List.mem_filter]
  by_cases h : j = k
  · simp [h]
  · simp [h, get?_eq_some_iff]

/-- A name that is new goes to the end. -/
theorem entries_insert_of_notMem {r : Registry α} {k : String} (h : k ∉ r.keys) (v : α) :
    (r.insert k v).entries = r.entries ++ [(k, v)] := by
  have hupsert : ∀ l : List (String × α), k ∉ l.map Prod.fst → upsert k v l = l ++ [(k, v)] := by
    intro l
    induction l with
    | nil => intro _; rfl
    | cons e rest ih =>
      intro hk
      rw [List.map_cons, List.mem_cons, not_or] at hk
      rw [upsert, if_neg fun he => hk.1 he.symm, ih hk.2, List.cons_append]
  exact hupsert r.entries h

/-- What is among the values after inserting is the new one, or it has been there before. -/
theorem mem_values_insert {r : Registry α} {k : String} {v w : α}
    (h : w ∈ (r.insert k v).values) : w = v ∨ w ∈ r.values := by
  obtain ⟨⟨j, w⟩, he, rfl⟩ := List.mem_map.mp h
  have hget := (get?_eq_some_iff _ _ _).mpr he
  rw [get?_insert] at hget
  split at hget
  · exact .inl (Option.some.inj hget).symm
  · exact .inr (List.mem_map_of_mem ((get?_eq_some_iff _ _ _).mp hget))

/-- Building a registry from a list is inserting its last entry last. -/
theorem ofList_concat (l : List (String × α)) (e : String × α) :
    ofList (l ++ [e]) = (ofList l).insert e.1 e.2 := by
  rw [ofList, ofList, List.foldl_append, List.foldl_cons, List.foldl_nil]

/-- Each name stands where it is written first. -/
theorem keys_ofList (l : List (String × α)) : (ofList l).keys = (l.map Prod.fst).eraseDups := by
  induction l using List.reverseRecOn with
  | nil => simp [ofList]
  | append_singleton l e ih =>
    rw [ofList_concat, keys_insert, ih, List.map_append, List.eraseDups_append]
    by_cases h : e.1 ∈ l.map Prod.fst
    · rw [if_pos (List.mem_eraseDups.mpr h)]
      simp [List.removeAll, List.mem_map.mp h]
    · rw [if_neg fun he => h (List.mem_eraseDups.mp he)]
      simp_all [List.removeAll, List.eraseDups_cons]

/-- Each name has the value that is written last. -/
theorem get?_ofList_eq_some_iff (l : List (String × α)) (k : String) (v : α) :
    (ofList l).get? k = some v ↔
      ∃ before after, l = before ++ (k, v) :: after ∧ k ∉ after.map Prod.fst := by
  induction l using List.reverseRecOn with
  | nil => simp [ofList]
  | append_singleton l e ih =>
    rw [ofList_concat, get?_insert]
    by_cases h : k = e.1
    · subst h
      rw [if_pos rfl, Option.some.injEq]
      constructor
      · rintro rfl
        exact ⟨l, [], rfl, by simp⟩
      · rintro ⟨before, after, hsplit, hafter⟩
        -- the last entry bears the name, so that nothing comes after it
        rcases List.eq_nil_or_concat after with rfl | ⟨after, e', rfl⟩
        · have hlast := (List.append_inj' hsplit rfl).2
          exact congrArg Prod.snd (List.cons.inj hlast).1
        · rw [List.concat_eq_append, ← List.cons_append, ← List.append_assoc] at hsplit
          have hlast := (List.append_inj' hsplit rfl).2
          simp [List.concat_eq_append, List.cons.inj hlast] at hafter
    · rw [if_neg h, ih]
      constructor
      · rintro ⟨before, after, rfl, hafter⟩
        exact ⟨before, after ++ [e], by simp, by simpa [h] using hafter⟩
      · rintro ⟨before, after, hsplit, hafter⟩
        rcases List.eq_nil_or_concat after with rfl | ⟨after, e', rfl⟩
        · have hlast := (List.append_inj' hsplit rfl).2
          exact absurd (congrArg Prod.fst (List.cons.inj hlast).1).symm h
        · rw [List.concat_eq_append, ← List.cons_append, ← List.append_assoc] at hsplit
          refine ⟨before, after, (List.append_inj' hsplit rfl).1, ?_⟩
          simp_all

/-- Where no name is written twice, all is kept as it is written. -/
theorem entries_ofList_of_nodup {l : List (String × α)} (h : (l.map Prod.fst).Nodup) :
    (ofList l).entries = l := by
  induction l using List.reverseRecOn with
  | nil => rfl
  | append_singleton l e ih =>
    rw [List.map_append, List.nodup_append] at h
    obtain ⟨hl, -, hdisjoint⟩ := h
    have hnew : e.1 ∉ (ofList l).keys := by
      rw [keys_ofList, List.mem_eraseDups]
      exact fun he => hdisjoint e.1 he e.1 (by simp) rfl
    rw [ofList_concat, entries_insert_of_notMem hnew, ih hl]

/-- A registry is built again from its entries. -/
theorem ofList_entries (r : Registry α) : ofList r.entries = r :=
  eq_of_entries_eq (entries_ofList_of_nodup r.nodup)

/-! ## Computing all values -/

theorem map_map (f : String → α → β) (g : String → β → γ) (r : Registry α) :
    (r.map f).map g = r.map fun k v => g k (f k v) := by
  refine eq_of_entries_eq ?_
  simp

/-- Mapping the values commutes with inserting an entry. -/
theorem map_insert (f : String → α → β) (r : Registry α) (k : String) (v : α) :
    (r.insert k v).map f = (r.map f).insert k (f k v) := by
  have h : ∀ l : List (String × α), (upsert k v l).map (fun e => (e.1, f e.1 e.2)) =
      upsert k (f k v) (l.map fun e => (e.1, f e.1 e.2)) := by
    intro l
    induction l with
    | nil => rfl
    | cons e rest ih =>
      by_cases he : e.1 = k
      · simp [upsert, he]
      · simp [upsert, he, ih]
  exact eq_of_entries_eq (h r.entries)

theorem map_erase (f : String → α → β) (r : Registry α) (k : String) :
    (r.erase k).map f = (r.map f).erase k := by
  refine eq_of_entries_eq ?_
  simp [erase, List.filter_map, Function.comp_def]

/-- Mapping can be done before or after a list becomes a registry: the last entry of a name wins
in both. -/
theorem map_ofList (f : String → α → β) (l : List (String × α)) :
    (ofList l).map f = ofList (l.map fun e => (e.1, f e.1 e.2)) := by
  have h : ∀ (l : List (String × α)) (r : Registry α),
      (l.foldl (fun r e => r.insert e.1 e.2) r).map f =
        (l.map fun e => (e.1, f e.1 e.2)).foldl (fun r e => r.insert e.1 e.2) (r.map f) := by
    intro l
    induction l with
    | nil => exact fun _ => rfl
    | cons e l ih =>
      intro r
      rw [List.foldl_cons, ih, map_insert, List.map_cons, List.foldl_cons]
  exact h l empty

/-- The registry of some names, with a value at the place of each. -/
def ofNames (names : List String) (nodup : names.Nodup) (values : Fin names.length → α) :
    Registry α :=
  ⟨List.ofFn fun i => (names.get i, values i), by
    rw [List.map_ofFn]
    exact (List.ofFn_get names).symm ▸ nodup⟩

theorem map_ofNames (f : String → α → β) {names : List String} (nodup : names.Nodup)
    (values : Fin names.length → α) :
    (ofNames names nodup values).map f =
      ofNames names nodup fun i => f (names.get i) (values i) := by
  refine eq_of_entries_eq ?_
  simp only [ofNames, entries_map, List.map_ofFn]
  rfl

/-- Every registry is its names, with a value at the place of each. -/
theorem exists_ofNames_eq (r : Registry α) : ∃ values, ofNames r.keys r.keys_nodup values = r := by
  have hlength : r.keys.length = r.entries.length := List.length_map _
  refine ⟨fun i => (r.entries.get (i.cast hlength)).2, eq_of_entries_eq ?_⟩
  refine List.ext_get (by simp [ofNames, hlength]) fun i _ _ => ?_
  simp only [ofNames, keys, List.get_eq_getElem, List.getElem_ofFn, List.getElem_map]
  rfl

end Provision.Registry
