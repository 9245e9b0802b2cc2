import Provision.Proofs.Yaml.Content
import Provision.Proofs.Yaml.Scalar

/-!
# What has been read loosely

A node whose shape is open is read as far as its kind: a scalar with its meaning, a collection part
by part. No part is left out, and none is read twice.

> `makes_loose`: what is kept of a node, by its kind.
-/

namespace Provision.Yaml

/-! ## Values -/

namespace Loose

/-- The items of a kept sequence have values when each of them has one. -/
theorem values?_eq_some_iff {items : List Loose} {values : List Value} :
    values? items = some values ↔ List.Forall₂ (fun l v => l.value? = some v) items values := by
  have hvalues : values? items = items.mapM value? := by
    induction items with
    | nil => rfl
    | cons l items ih => rw [values?, ih, List.mapM_cons]
  rw [hvalues, mapM_eq_some_iff]

/-- The entries of a kept mapping have values when each key and each value in it has one. -/
theorem entries?_eq_some_iff {kept : List (Loose × Loose)} {entries : List (Value × Value)} :
    entries? kept = some entries ↔
      List.Forall₂ (fun l e => l.1.value? = some e.1 ∧ l.2.value? = some e.2) kept entries := by
  induction kept generalizing entries with
  | nil => simp [entries?, eq_comm]
  | cons l kept ih =>
    obtain ⟨k, v⟩ := l
    rw [entries?, List.forall₂_cons_left_iff]
    simp only [Option.bind_eq_bind, Option.bind_eq_some_iff, Option.pure_def, Option.some.injEq, ih]
    constructor
    · rintro ⟨k', hk, v', hv, rest, hrest, rfl⟩
      exact ⟨(k', v'), rest, ⟨hk, hv⟩, hrest, rfl⟩
    · rintro ⟨⟨k', v'⟩, rest, ⟨hk, hv⟩, hrest, rfl⟩
      exact ⟨k', hk, v', hv, rest, hrest, rfl⟩

end Loose

namespace Decode

variable {env : Surroundings} {n : Node} {l : Loose}

/-! ## Nodes -/

/-- What is kept of a node, with what is kept of its parts. -/
inductive LooseRead (env : Surroundings) : Node → Loose → Prop
  | scalar {m : Mark} {tag : Option Tag} {style : Style} {text : String} {s : Scalar} {l : Loose}
      (meaning : Scalar.ofNode tag style text = .ok s) (kept : Loose.ofScalar? text s = some l) :
      LooseRead env (.scalar m tag style text) l
  | sequence {m : Mark} {tag : Option Tag} {nodes : List Node} {items : List Loose}
      (parts : List.Forall₂ (Makes loose env) nodes items) :
      LooseRead env (.sequence m tag nodes) (.sequence items)
  | mapping {m : Mark} {tag : Option Tag} {es : List (Node × Node)} {kept : List (Loose × Loose)}
      (parts : List.Forall₂
        (fun e l => Makes loose env e.1 l.1 ∧ Makes loose env e.2 l.2) es kept) :
      LooseRead env (.mapping m tag es) (.mapping kept)

theorem reads_scalarMeaning {tag : Option Tag} {style : Style} {text : String} {s : Scalar}
    (h : (scalarMeaning tag style text).Reads env s) : Scalar.ofNode tag style text = .ok s := by
  rw [scalarMeaning] at h
  split at h
  next hmeaning => rw [hmeaning, reads_pure h]
  next => exact absurd h not_reads_complain

/-- The parts of a node are read only while the depth lasts. -/
theorem reads_partReader {α : Type} {inner : Option (Target → Decode α)} {m : Mark}
    {reader : Target → Decode α} (h : (partReader inner m).Reads env reader) :
    inner = some reader := by
  cases inner with
  | none => exact absurd h not_reads_throw
  | some reader' => exact congrArg some (reads_pure h).symm

/-- What is kept of a node is its content, unless more references are in it than may be followed. -/
theorem makes_loose_iff :
    Makes loose env n l ↔ ∃ depth k, Holds env depth n l k ∧ env.Affords 0 k := by
  constructor
  · rintro ⟨depth, path, before, after, h⟩
    obtain ⟨k, hheld, hafford, -⟩ := (loose_exactly depth ⟨n, path⟩ before l after).mp h
    exact ⟨depth, k, hheld, hafford.of_le (Nat.zero_le before) (Nat.le_refl k)⟩
  · rintro ⟨depth, k, hheld, hafford⟩
    exact ⟨depth, [], 0, 0 + k, (loose_exactly depth ⟨n, []⟩ 0 l (0 + k)).mpr
      ⟨k, hheld, hafford, rfl⟩⟩

/-- Items that are kept have been read one by one. -/
theorem HoldsItems.forall₂_makes {depth : Nat} {nodes : List Node} : ∀ {items : List Loose}
    {k : Nat}, HoldsItems env depth nodes items k → env.Affords 0 k →
      List.Forall₂ (Makes loose env) nodes items := by
  induction nodes with
  | nil =>
    rintro _ _ ⟨⟩ -
    exact .nil
  | cons n nodes ih =>
    rintro _ _ ⟨⟩ hafford
    next hitem hrest =>
      have hone := makes_loose_iff.mpr ⟨depth, _, hitem, hafford.of_le (Nat.le_refl 0) (by omega)⟩
      exact .cons hone (ih hrest (hafford.of_le (Nat.le_refl 0) (by omega)))

/-- Entries that are kept have been read one by one. -/
theorem HoldsEntries.forall₂_makes {depth : Nat} {es : List (Node × Node)} :
    ∀ {kept : List (Loose × Loose)} {k : Nat}, HoldsEntries env depth es kept k →
      env.Affords 0 k →
      List.Forall₂ (fun e l => Makes loose env e.1 l.1 ∧ Makes loose env e.2 l.2) es kept := by
  induction es with
  | nil =>
    rintro _ _ ⟨⟩ -
    exact .nil
  | cons e es ih =>
    rintro _ _ ⟨⟩ hafford
    next hkey hvalue hrest =>
      have hkey := makes_loose_iff.mpr ⟨depth, _, hkey, hafford.of_le (Nat.le_refl 0) (by omega)⟩
      have hvalue := makes_loose_iff.mpr ⟨depth, _, hvalue,
        hafford.of_le (Nat.le_refl 0) (by omega)⟩
      exact .cons ⟨hkey, hvalue⟩ (ih hrest (hafford.of_le (Nat.le_refl 0) (by omega)))

/-- What is kept of a node, by its kind. A node with a tag of its own is not read loosely. -/
theorem makes_loose (h : Makes loose env n l) :
    ∃ n', env.resolve n = some n' ∧ ownTag n' = none ∧ LooseRead env n' l := by
  obtain ⟨depth, _, ⟨hresolve, hheld⟩, hafford⟩ := makes_loose_iff.mp h
  have hafford := hafford.of_le (Nat.le_refl 0) (Nat.le_add_left _ _)
  refine ⟨_, hresolve, hheld.ownTag_eq_none, ?_⟩
  cases hheld with
  | scalar _ hmeaning hkept => exact .scalar hmeaning hkept
  | sequence _ hparts => exact .sequence (hparts.forall₂_makes hafford)
  | mapping _ hparts => exact .mapping (hparts.forall₂_makes hafford)

theorem LooseRead.of_sequence {items : List Loose} (h : LooseRead env n (.sequence items)) :
    ∃ m tag nodes, n = .sequence m tag nodes ∧ List.Forall₂ (Makes loose env) nodes items := by
  cases h with
  | @scalar _ _ _ _ s _ meaning kept => cases s <;> simp [Loose.ofScalar?] at kept
  | sequence parts => exact ⟨_, _, _, rfl, parts⟩

theorem LooseRead.of_mapping {kept : List (Loose × Loose)} (h : LooseRead env n (.mapping kept)) :
    ∃ m tag es, n = .mapping m tag es ∧
      List.Forall₂ (fun e l => Makes loose env e.1 l.1 ∧ Makes loose env e.2 l.2) es kept := by
  cases h with
  | @scalar _ _ _ _ s _ meaning kept => cases s <;> simp [Loose.ofScalar?] at kept
  | mapping parts => exact ⟨_, _, _, rfl, parts⟩

/-- What is kept as a string is a scalar with its text. -/
theorem text?_of_makes_loose {s : String} (h : Makes loose env n (.string s)) :
    env.text? n = some s := by
  obtain ⟨n', hresolve, -, hread⟩ := makes_loose h
  cases hread with
  | @scalar m tag style text scalar _ meaning kept =>
    cases scalar with
    | string s' =>
      obtain rfl : s' = s := by simpa [Loose.ofScalar?] using kept
      rw [Surroundings.text?, hresolve, Scalar.eq_of_ofNode_eq_string meaning]
    | _ => simp [Loose.ofScalar?] at kept

end Decode

end Provision.Yaml
