import Provision.Proofs.Result

/-!
# Results that are read from one symbolic result

A computation with unknown values has a result for each way to choose the values. Its results are
uniform if there is one symbolic result, with the unknown values left open, from which all of them
are read; in particular the choice decides neither whether there is an error nor which one. What
the values may do to a result is then what reading does.

> `Uniform.bind`, `Uniform.mapM`: computations whose steps are uniform are uniform.
-/

namespace Provision

universe u

variable {ι ε σ α τ β : Type u}

/-- One symbolic result, or one error, from which the results for all choices are read. -/
def Uniform (read : ι → σ → α) (results : ι → Except ε α) : Prop :=
  ∃ symbolic : Except ε σ, ∀ i, results i = symbolic.map (read i)

namespace Uniform

variable {read : ι → σ → α} {read' : ι → τ → β}

/-- A computation that always succeeds is uniform. -/
theorem ok {results : ι → α} (s : σ) (h : ∀ i, results i = read i s) :
    Uniform read fun i => (.ok (results i) : Except ε α) :=
  ⟨.ok s, fun i => congrArg Except.ok (h i)⟩

/-- A computation that always fails in the same way is uniform. -/
theorem error (e : ε) : Uniform read fun _ => (.error e : Except ε α) :=
  ⟨.error e, fun _ => rfl⟩

/-- A computation that does not depend on the index at all is uniform. -/
theorem const (x : Except ε α) : Uniform (fun (_ : ι) a => a) fun _ => x :=
  ⟨x, fun _ => by cases x <;> rfl⟩

/-- Two uniform steps in sequence are uniform: the error of either is the same for every index. -/
theorem bind {x : ι → Except ε α} {f : ι → α → Except ε β} (hx : Uniform read x)
    (hf : ∀ s, Uniform read' fun i => f i (read i s)) : Uniform read' fun i => x i >>= f i := by
  obtain ⟨symbolic, hx⟩ := hx
  cases symbolic with
  | error e =>
    refine ⟨.error e, fun i => ?_⟩
    simp only [hx]
    rfl
  | ok s =>
    obtain ⟨symbolic, hf⟩ := hf s
    refine ⟨symbolic, fun i => ?_⟩
    simp only [hx]
    exact hf i

/-- A uniform computation stays so when its result is mapped. -/
theorem map {x : ι → Except ε α} {f : ι → α → β} {g : σ → τ} (hx : Uniform read x)
    (hf : ∀ i s, f i (read i s) = read' i (g s)) : Uniform read' fun i => (x i).map (f i) := by
  obtain ⟨symbolic, hx⟩ := hx
  refine ⟨symbolic.map g, fun i => ?_⟩
  simp only [hx]
  cases symbolic with
  | error e => rfl
  | ok s => exact congrArg Except.ok (hf i s)

/-- A uniform computation stays so when its error is mapped. -/
theorem mapError {ε' : Type u} {x : ι → Except ε α} (f : ε → ε') (hx : Uniform read x) :
    Uniform read fun i => (x i).mapError f := by
  obtain ⟨symbolic, hx⟩ := hx
  refine ⟨symbolic.mapError f, fun i => ?_⟩
  simp only [hx]
  cases symbolic <;> rfl

/-- The results of a list of steps are read entry by entry. -/
theorem mapM {γ : Type u} {f : ι → γ → Except ε α} (hf : ∀ a, Uniform read fun i => f i a)
    (l : List γ) : Uniform (fun i => List.map (read i)) fun i => l.mapM (f i) := by
  induction l with
  | nil => exact ok [] fun _ => rfl
  | cons a l ih =>
    simp only [List.mapM_cons]
    exact (hf a).bind fun s => ih.bind fun rest => ok (s :: rest) fun _ => rfl

/-- Nothing that reading keeps depends on the choice. -/
theorem map_eq {x : ι → Except ε α} (hx : Uniform read x) {kept : α → β}
    (hkept : ∀ i j s, kept (read i s) = kept (read j s)) (i j : ι) :
    (x i).map kept = (x j).map kept := by
  obtain ⟨symbolic, hx⟩ := hx
  rw [hx i, hx j]
  cases symbolic with
  | error e => rfl
  | ok s => exact congrArg Except.ok (hkept i j s)

end Uniform

end Provision
