import Mathlib.Data.List.Forall2

/-!
# Results and errors, one step after another

A chain of steps ends with the first error. Whoever wants to know how a chain has ended takes it
apart step by step, by the lemmas here, and does not unfold the steps.

> `bind_eq_ok_iff`, `bind_eq_error_iff`: how a chain of two steps ends;
> `mapM_eq_error_iff`: an error of a list of steps is that of the first one that ends with an error.
-/

namespace Provision

universe u v w

variable {ε : Type u} {α : Type v} {β : Type v}

/-- A sequence of two steps succeeds when both do. -/
theorem bind_eq_ok_iff {x : Except ε α} {f : α → Except ε β} {y : β} :
    x >>= f = .ok y ↔ ∃ a, x = .ok a ∧ f a = .ok y := by
  cases x <;> simp [bind, Except.bind]

/-- A sequence of two steps fails in the first step or in the second. -/
theorem bind_eq_error_iff {x : Except ε α} {f : α → Except ε β} {e : ε} :
    x >>= f = .error e ↔ x = .error e ∨ ∃ a, x = .ok a ∧ f a = .error e := by
  cases x <;> simp [bind, Except.bind]

theorem bind_pure_eq_error_iff {x : Except ε α} {f : α → β} {e : ε} :
    (do return f (← x)) = Except.error e ↔ x = .error e := by
  cases x <;> simp [bind, Except.bind, pure, Except.pure]

theorem map_eq_ok_iff {x : Except ε α} {f : α → β} {y : β} :
    x.map f = .ok y ↔ ∃ a, x = .ok a ∧ f a = y := by
  cases x <;> simp [Except.map]

theorem map_eq_error_iff {x : Except ε α} {f : α → β} {e : ε} :
    x.map f = .error e ↔ x = .error e := by
  cases x <;> simp [Except.map]

theorem mapError_eq_ok_iff {ε' : Type w} {x : Except ε α} {f : ε → ε'} {a : α} :
    x.mapError f = .ok a ↔ x = .ok a := by
  cases x <;> simp [Except.mapError]

theorem mapError_eq_error_iff {ε' : Type w} {x : Except ε α} {f : ε → ε'} {e : ε'} :
    x.mapError f = .error e ↔ ∃ e', x = .error e' ∧ f e' = e := by
  cases x with
  | error e' =>
    constructor
    · exact fun h => ⟨e', rfl, Except.error.inj h⟩
    · rintro ⟨_, h, rfl⟩
      rw [← Except.error.inj h]
      rfl
  | ok a =>
    constructor
    · exact fun h => nomatch h
    · rintro ⟨_, h, -⟩
      exact nomatch h

theorem eq_ok_of_toOption_eq_some {x : Except ε α} {a : α} (h : x.toOption = some a) :
    x = .ok a := by
  cases x with
  | error e => exact nomatch h
  | ok b => exact congrArg Except.ok (Option.some.inj h)

/-- A list of steps succeeds when the first does and all the others do. -/
theorem mapM_cons_eq_ok_iff {f : α → Except ε β} {a : α} {l : List α} {ys : List β} :
    (a :: l).mapM f = .ok ys ↔ ∃ y rest, f a = .ok y ∧ l.mapM f = .ok rest ∧ ys = y :: rest := by
  rw [List.mapM_cons]
  simp only [bind_eq_ok_iff, pure, Except.pure, Except.ok.injEq]
  grind

/-- A list of steps succeeds when each of them does. -/
theorem mapM_eq_ok_iff {f : α → Except ε β} {l : List α} {ys : List β} :
    l.mapM f = .ok ys ↔ List.Forall₂ (fun x y => f x = .ok y) l ys := by
  induction l generalizing ys with
  | nil => simp [pure, Except.pure, eq_comm]
  | cons a l ih =>
    simp only [mapM_cons_eq_ok_iff, ih, List.forall₂_cons_left_iff]

/-- A list of steps fails in its first step, or later when the first step succeeds. -/
theorem mapM_cons_eq_error_iff {f : α → Except ε β} {a : α} {l : List α} {e : ε} :
    (a :: l).mapM f = .error e ↔
      f a = .error e ∨ ∃ y, f a = .ok y ∧ l.mapM f = .error e := by
  rw [List.mapM_cons]
  simp [bind_eq_error_iff, pure, Except.pure]

/-- Mapping a partial function over a list succeeds when it is defined at every entry. -/
theorem mapM_eq_some_iff {γ : Type u} {δ : Type v} {f : γ → Option δ} {l : List γ} :
    ∀ {ys : List δ}, l.mapM f = some ys ↔ List.Forall₂ (fun x y => f x = some y) l ys := by
  induction l with
  | nil =>
    intro ys
    rw [List.mapM_nil, Option.pure_def, Option.some.injEq, List.forall₂_nil_left_iff, eq_comm]
  | cons x l ih =>
    intro ys
    rw [List.mapM_cons, List.forall₂_cons_left_iff]
    simp only [Option.bind_eq_bind, Option.bind_eq_some_iff, Option.pure_def, Option.some.injEq, ih]
    constructor
    · rintro ⟨y, hy, rest, hrest, rfl⟩
      exact ⟨y, rest, hy, hrest, rfl⟩
    · rintro ⟨y, rest, hy, hrest, rfl⟩
      exact ⟨y, hy, rest, hrest, rfl⟩

/-! ## The first of some steps -/

/-- Whether a member of a list is the first one with a property. -/
def IsFirst (P : α → Prop) (l : List α) (a : α) : Prop :=
  ∃ before after, l = before ++ a :: after ∧ P a ∧ ∀ x ∈ before, ¬ P x

/-- The first hit of a list, as `find?` computes it. -/
theorem isFirst_iff_find? {P : α → Prop} [DecidablePred P] {l : List α} {a : α} :
    IsFirst P l a ↔ l.find? (fun x => P x) = some a := by
  rw [List.find?_eq_some_iff_append, IsFirst]
  constructor
  · rintro ⟨before, after, hsplit, ha, hbefore⟩
    exact ⟨by simpa using ha, before, after, hsplit, fun x hx => by simpa using hbefore x hx⟩
  · rintro ⟨ha, before, after, hsplit, hbefore⟩
    exact ⟨before, after, hsplit, by simpa using ha, fun x hx => by simpa using hbefore x hx⟩

theorem IsFirst.mem {P : α → Prop} {l : List α} {a : α} (h : IsFirst P l a) : a ∈ l := by
  obtain ⟨before, after, rfl, -⟩ := h
  simp

theorem IsFirst.holds {P : α → Prop} {l : List α} {a : α} (h : IsFirst P l a) : P a := by
  obtain ⟨-, -, -, ha, -⟩ := h
  exact ha

/-- Two conditions that agree have the same first hit. -/
theorem IsFirst.congr {P Q : α → Prop} {l : List α} {a : α} (h : ∀ x, P x ↔ Q x) :
    IsFirst P l a ↔ IsFirst Q l a := by
  rw [funext fun x => propext (h x)]

/-- The first hit of a list is its head, or the first hit of its tail where the head is none. -/
theorem isFirst_cons_iff {P : α → Prop} {x a : α} {l : List α} :
    IsFirst P (x :: l) a ↔ x = a ∧ P a ∨ ¬ P x ∧ IsFirst P l a := by
  constructor
  · rintro ⟨before, after, hsplit, ha, hbefore⟩
    cases before with
    | nil => exact Or.inl ⟨(List.cons.inj hsplit).1, ha⟩
    | cons y before =>
      obtain ⟨rfl, rfl⟩ := List.cons.inj hsplit
      rw [List.forall_mem_cons] at hbefore
      exact Or.inr ⟨hbefore.1, before, after, rfl, ha, hbefore.2⟩
  · rintro (⟨rfl, ha⟩ | ⟨hx, before, after, rfl, ha, hbefore⟩)
    · exact ⟨[], l, rfl, ha, by simp⟩
    · exact ⟨x :: before, after, rfl, ha, List.forall_mem_cons.mpr ⟨hx, hbefore⟩⟩

/-- There is a first hit as soon as there is any. -/
theorem exists_isFirst_iff {P : α → Prop} {l : List α} : (∃ a, IsFirst P l a) ↔ ∃ a ∈ l, P a := by
  constructor
  · exact fun ⟨a, ha⟩ => ⟨a, ha.mem, ha.holds⟩
  · induction l with
    | nil => simp
    | cons x l ih =>
      simp only [isFirst_cons_iff, List.exists_mem_cons_iff]
      by_cases hx : P x
      · exact fun _ => ⟨x, Or.inl ⟨rfl, hx⟩⟩
      · intro h
        obtain ⟨a, ha⟩ := ih (h.resolve_left hx)
        exact ⟨a, Or.inr ⟨hx, ha⟩⟩

/-- An error of a list of steps is the error of the first one that ends with an error. -/
theorem mapM_eq_error_iff {f : α → Except ε β} {l : List α} {e : ε} :
    l.mapM f = .error e ↔ ∃ a, IsFirst (fun x => ∃ e, f x = .error e) l a ∧ f a = .error e := by
  induction l with
  | nil => simp [IsFirst, pure, Except.pure]
  | cons x l ih =>
    rw [mapM_cons_eq_error_iff, ih]
    simp only [isFirst_cons_iff]
    cases hx : f x with
    | error e' => grind
    | ok y => grind

/-- An error of a list of steps is the error of one of them. -/
theorem exists_of_mapM_eq_error {f : α → Except ε β} {l : List α} {e : ε}
    (h : l.mapM f = .error e) : ∃ a ∈ l, f a = .error e := by
  obtain ⟨a, hfirst, ha⟩ := mapM_eq_error_iff.mp h
  exact ⟨a, hfirst.mem, ha⟩

/-- A list of steps fails with some error if and only if one of the steps does by itself. -/
theorem exists_mapM_eq_error_iff {f : α → Except ε β} {l : List α} :
    (∃ e, l.mapM f = .error e) ↔ ∃ a ∈ l, ∃ e, f a = .error e := by
  simp only [mapM_eq_error_iff]
  rw [← exists_isFirst_iff, exists_comm]
  refine exists_congr fun a => ⟨fun ⟨_, hfirst, _⟩ => hfirst, fun hfirst => ?_⟩
  obtain ⟨e, he⟩ := hfirst.holds
  exact ⟨e, hfirst, he⟩

end Provision
