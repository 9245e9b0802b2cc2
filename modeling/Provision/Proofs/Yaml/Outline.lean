import Mathlib.Data.List.Basic
import Provision.Yaml.Outline
import Provision.Proofs.Result

/-!
# Which values can be written

The only entry of a mapping is written in the way in which a tag would be, so that it is refused
if its key is tagged or has one entry itself. Nothing else is refused, however deep it is.

> `ofValue_eq_error_iff`: a value cannot be written exactly if such a mapping occurs in it.
-/

namespace Provision.Yaml

/-- Whether a value is a part of another one, each without a tag of its own or right below one. -/
inductive Value.Occurs : (bare : Bool) → Value → (bare' : Bool) → Value → Prop
  | here {bare : Bool} {v : Value} : Occurs bare v bare v
  | item {bare bare' : Bool} {v w : Value} {items : List Value} (member : v ∈ items)
      (inside : Occurs true v bare' w) : Occurs bare (.sequence items) bare' w
  | key {bare bare' : Bool} {k v w : Value} {entries : List (Value × Value)}
      (member : (k, v) ∈ entries) (inside : Occurs true k bare' w) :
      Occurs bare (.mapping entries) bare' w
  | value {bare bare' : Bool} {k v w : Value} {entries : List (Value × Value)}
      (member : (k, v) ∈ entries) (inside : Occurs true v bare' w) :
      Occurs bare (.mapping entries) bare' w
  | tagged {bare bare' : Bool} {name : String} {v w : Value} (inside : Occurs false v bare' w) :
      Occurs bare (.tagged name v) bare' w

namespace Outline

/-- Whether a mapping with one entry occurs, without a tag, whose key would be taken for one. -/
def Stuck (bare : Bool) (v : Value) : Prop :=
  ∃ k x, isTagLike k = true ∧ Value.Occurs bare v true (.mapping [(k, x)])

/-! ## One level of a value -/

section Levels

variable {bare : Bool}

/-- Only values with parts can be stuck. -/
theorem not_stuck_of_isLeaf {v : Value} (hleaf : ∀ items, v ≠ .sequence items)
    (hmapping : ∀ es, v ≠ .mapping es) (htagged : ∀ name w, v ≠ .tagged name w) :
    ¬ Stuck bare v := by
  rintro ⟨k, x, -, hoccurs⟩
  cases hoccurs with
  | here => exact hmapping _ rfl
  | item => exact hleaf _ rfl
  | key => exact hmapping _ rfl
  | value => exact hmapping _ rfl
  | tagged => exact htagged _ _ rfl

/-- A sequence is stuck when one of its items is. -/
theorem stuck_sequence_iff {items : List Value} :
    Stuck bare (.sequence items) ↔ ∃ v ∈ items, Stuck true v := by
  constructor
  · rintro ⟨k, x, hk, hoccurs⟩
    cases hoccurs with
    | item member inside => exact ⟨_, member, k, x, hk, inside⟩
  · rintro ⟨v, hv, k, x, hk, hoccurs⟩
    exact ⟨k, x, hk, .item hv hoccurs⟩

theorem stuck_tagged_iff {name : String} {v : Value} :
    Stuck bare (.tagged name v) ↔ Stuck false v := by
  constructor
  · rintro ⟨k, x, hk, hoccurs⟩
    cases hoccurs with
    | tagged inside => exact ⟨k, x, hk, inside⟩
  · rintro ⟨k, x, hk, hoccurs⟩
    exact ⟨k, x, hk, .tagged hoccurs⟩

/-- A mapping is refused for itself, or for one of its parts. -/
theorem stuck_mapping_iff {es : List (Value × Value)} :
    Stuck bare (.mapping es) ↔
      (bare = true ∧ ∃ k x, isTagLike k = true ∧ es = [(k, x)]) ∨
      ∃ e ∈ es, Stuck true e.1 ∨ Stuck true e.2 := by
  constructor
  · rintro ⟨k, x, hk, hoccurs⟩
    cases hoccurs with
    | here => exact Or.inl ⟨rfl, k, x, hk, rfl⟩
    | key member inside => exact Or.inr ⟨_, member, Or.inl ⟨k, x, hk, inside⟩⟩
    | value member inside => exact Or.inr ⟨_, member, Or.inr ⟨k, x, hk, inside⟩⟩
  · rintro (⟨rfl, k, x, hk, rfl⟩ | ⟨e, he, ⟨k, x, hk, hoccurs⟩ | ⟨k, x, hk, hoccurs⟩⟩)
    · exact ⟨k, x, hk, .here⟩
    · exact ⟨k, x, hk, .key he hoccurs⟩
    · exact ⟨k, x, hk, .value he hoccurs⟩

end Levels

/-! ## All levels -/

/-- There is one reason only, so that the steps of a chain fail with the same one. -/
theorem bind_eq_error_iff_or {α β : Type} {x : Except WriteError α} {f : α → Except WriteError β}
    {e : WriteError} {P : Prop} (h : ∀ a, f a = .error e ↔ P) :
    x >>= f = .error e ↔ x = .error e ∨ P := by
  cases x with
  | error e' =>
    cases e
    cases e'
    simp [bind, Except.bind]
  | ok a =>
    rw [← h a]
    simp [bind, Except.bind]

mutual

/-- A value cannot be written exactly when it is stuck. Along the value, with its items and
entries. -/
theorem ofValueIn_eq_error_iff (e : WriteError) :
    ∀ (bare : Bool) (v : Value), ofValueIn bare v = .error e ↔ Stuck bare v
  | bare, .null => by simp [ofValueIn, not_stuck_of_isLeaf]
  | bare, .bool _ => by simp [ofValueIn, not_stuck_of_isLeaf]
  | bare, .integer _ => by simp [ofValueIn, not_stuck_of_isLeaf]
  | bare, .float _ => by simp [ofValueIn, not_stuck_of_isLeaf]
  | bare, .string _ => by simp [ofValueIn, not_stuck_of_isLeaf]
  | bare, .sequence items => by
    rw [ofValueIn, map_eq_error_iff, ofItems_eq_error_iff e items, stuck_sequence_iff]
  | bare, .tagged name v => by
    rw [ofValueIn, map_eq_error_iff, ofValueIn_eq_error_iff e false v, stuck_tagged_iff]
  | bare, .mapping es => by
    have hparts : (ofEntries es).map (Outline.mapping none) = .error e ↔
        ∃ e' ∈ es, Stuck true e'.1 ∨ Stuck true e'.2 := by
      rw [map_eq_error_iff, ofEntries_eq_error_iff e es]
    unfold ofValueIn
    rw [stuck_mapping_iff]
    split
    next k x =>
      by_cases hrefused : bare = true ∧ isTagLike k = true
      · obtain ⟨rfl, hk⟩ := hrefused
        cases e
        simp [hk]
      · rw [if_neg (by simpa using hrefused), hparts, or_iff_right]
        rintro ⟨hbare, k', x', hk', heq⟩
        obtain ⟨rfl, -⟩ := Prod.mk.inj (List.cons.inj heq).1
        exact hrefused ⟨hbare, hk'⟩
    next hmany =>
      rw [hparts, or_iff_right]
      rintro ⟨-, k, x, -, heq⟩
      exact hmany k x heq

theorem ofItems_eq_error_iff (e : WriteError) :
    ∀ items : List Value, ofItems items = .error e ↔ ∃ v ∈ items, Stuck true v
  | [] => by simp [ofItems]
  | v :: rest => by
    rw [List.exists_mem_cons_iff, ← ofValueIn_eq_error_iff e true v, ← ofItems_eq_error_iff e rest]
    exact bind_eq_error_iff_or fun _ => bind_pure_eq_error_iff

theorem ofEntries_eq_error_iff (e : WriteError) :
    ∀ es : List (Value × Value),
      ofEntries es = .error e ↔ ∃ e' ∈ es, Stuck true e'.1 ∨ Stuck true e'.2
  | [] => by simp [ofEntries]
  | (k, v) :: rest => by
    rw [List.exists_mem_cons_iff, or_assoc, ← ofValueIn_eq_error_iff e true k,
      ← ofValueIn_eq_error_iff e true v, ← ofEntries_eq_error_iff e rest]
    exact bind_eq_error_iff_or fun _ => bind_eq_error_iff_or fun _ => bind_pure_eq_error_iff

end

end Outline

end Provision.Yaml
