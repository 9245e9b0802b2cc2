import Mathlib.Data.List.Basic
import Mathlib.Data.List.Nodup

/-!
# First occurrences

Repeated names count where they stand first. Taking the repetitions out of a list commutes with
choosing among its members and with renaming them, and keeps the order of first occurrence.

> `nodup_eraseDups`: nothing is left twice;
> `pairwise_idxOf_eraseDups`: what is left stands in the order in which the list first names it.
-/

namespace Provision

variable {α : Type} {β : Type} [DecidableEq α] [DecidableEq β]

/-- What is left after dropping repetitions has none. -/
theorem nodup_eraseDups : ∀ l : List α, l.eraseDups.Nodup
  | [] => by simp
  | a :: l => by
    rw [List.eraseDups_cons, List.nodup_cons]
    exact ⟨by simp, nodup_eraseDups _⟩
  termination_by l => l.length
  decreasing_by exact Nat.lt_succ_of_le (List.length_filter_le _ _)

/-- A filter asks each name by itself, so it makes no difference whether repetitions go before or
after it. -/
theorem eraseDups_filter (p : α → Bool) :
    ∀ l : List α, (l.filter p).eraseDups = l.eraseDups.filter p
  | [] => by simp
  | a :: l => by
    have ih := eraseDups_filter p (l.filter fun b => !b == a)
    rw [List.eraseDups_cons]
    by_cases ha : p a = true
    · rw [List.filter_cons_of_pos ha, List.filter_cons_of_pos ha, List.eraseDups_cons, ← ih,
        List.filter_comm]
    · -- the members that are chosen all differ from `a`
      have hself : (l.filter p).filter (fun b => !b == a) = l.filter p := by
        refine List.filter_eq_self.mpr fun b hb => ?_
        have hpb := (List.mem_filter.mp hb).2
        simpa using fun e : b = a => ha (e ▸ hpb)
      rw [List.filter_cons_of_neg ha, List.filter_cons_of_neg ha, ← ih, List.filter_comm, hself]
  termination_by l => l.length
  decreasing_by exact Nat.lt_succ_of_le (List.length_filter_le _ _)

/-- Distinct names stay distinct under an injective map, so repetitions can be dropped before it.
-/
theorem eraseDups_map {f : α → β} (hf : Function.Injective f) :
    ∀ l : List α, (l.map f).eraseDups = l.eraseDups.map f
  | [] => by simp
  | a :: l => by
    have ih := eraseDups_map hf (l.filter fun b => !b == a)
    rw [List.map_cons, List.eraseDups_cons, List.eraseDups_cons, List.map_cons, ← ih,
      List.filter_map]
    have hsame : ((fun b => !b == f a) ∘ f) = fun b => !b == a := by
      funext b
      simp [hf.eq_iff]
    rw [hsame]
  termination_by l => l.length
  decreasing_by exact Nat.lt_succ_of_le (List.length_filter_le _ _)

theorem eraseDups_eq_self {l : List α} (h : l.Nodup) : l.eraseDups = l := by
  induction l with
  | nil => rfl
  | cons a l ih =>
    rw [List.nodup_cons] at h
    rw [List.eraseDups_cons, List.filter_eq_self.mpr, ih h.2]
    intro b hb
    simpa using fun e : b = a => h.1 (e ▸ hb)

/-- Two lists without a name in common can be cleaned one by one. -/
theorem eraseDups_append_of_disjoint {l l' : List α} (h : ∀ a ∈ l, a ∉ l') :
    (l ++ l').eraseDups = l.eraseDups ++ l'.eraseDups := by
  rw [List.eraseDups_append, List.removeAll, List.filter_eq_self.mpr]
  intro a ha
  simpa using fun hal : a ∈ l => h a hal ha

/-- Groups without common members can be treated one by one. -/
theorem eraseDups_flatMap {γ : Type} {f : γ → List α} {l : List γ}
    (h : l.Pairwise fun x y => ∀ a ∈ f x, a ∉ f y) :
    (l.flatMap f).eraseDups = l.flatMap fun x => (f x).eraseDups := by
  induction l with
  | nil => rfl
  | cons x l ih =>
    rw [List.pairwise_cons] at h
    rw [List.flatMap_cons, List.flatMap_cons, eraseDups_append_of_disjoint, ih h.2]
    intro a ha hal
    obtain ⟨y, hy, hay⟩ := List.mem_flatMap.mp hal
    exact h.1 y hy a ha hay

/-- Choosing among the members of a list keeps their order. -/
theorem idxOf_lt_of_filter {p : α → Bool} {a b : α} (ha : p a = true) (hb : p b = true)
    {l : List α} (h : (l.filter p).idxOf a < (l.filter p).idxOf b) : l.idxOf a < l.idxOf b := by
  induction l with
  | nil => simp at h
  | cons c l ih =>
    by_cases hc : p c = true
    · rw [List.filter_cons_of_pos hc] at h
      simp only [List.idxOf_cons] at h ⊢
      cases hca : c == a <;> cases hcb : c == b <;> simp_all
    · rw [List.filter_cons_of_neg hc] at h
      have hca : c ≠ a := fun e => hc (e ▸ ha)
      have hcb : c ≠ b := fun e => hc (e ▸ hb)
      rw [List.idxOf_cons_ne _ hca, List.idxOf_cons_ne _ hcb]
      exact Nat.succ_lt_succ (ih h)

/-- Dropping repetitions keeps the first occurrences, in the order in which they came. -/
theorem pairwise_idxOf_eraseDups :
    ∀ l : List α, l.eraseDups.Pairwise fun a b => l.idxOf a < l.idxOf b
  | [] => by simp
  | a :: l => by
    have ih := pairwise_idxOf_eraseDups (l.filter fun b => !b == a)
    have hne : ∀ b ∈ (l.filter fun b => !b == a).eraseDups, a ≠ b := by
      intro b hb e
      simp [e] at hb
    rw [List.eraseDups_cons, List.pairwise_cons]
    refine ⟨fun b hb => ?_, ih.imp_of_mem fun {b c} hb hc hbc => ?_⟩
    · rw [List.idxOf_cons_self, List.idxOf_cons_ne _ (hne b hb)]
      exact Nat.succ_pos _
    · rw [List.idxOf_cons_ne _ (hne b hb), List.idxOf_cons_ne _ (hne c hc)]
      exact Nat.succ_lt_succ (idxOf_lt_of_filter (by simpa using (hne b hb).symm)
        (by simpa using (hne c hc).symm) hbc)
  termination_by l => l.length
  decreasing_by exact Nat.lt_succ_of_le (List.length_filter_le _ _)

/-- Different names stand in the order of their places. -/
theorem pairwise_idxOf {l : List α} (h : l.Nodup) :
    l.Pairwise fun a b => l.idxOf a < l.idxOf b := by
  have hall := pairwise_idxOf_eraseDups l
  rwa [eraseDups_eq_self h] at hall

/-- What holds of the members of a list in order holds of two that stand in this order. -/
theorem rel_of_idxOf_lt {R : α → α → Prop} {l : List α} (h : l.Pairwise R) {a b : α} (ha : a ∈ l)
    (hb : b ∈ l) (hab : l.idxOf a < l.idxOf b) : R a b := by
  have hrel := List.pairwise_iff_getElem.mp h _ _ (List.idxOf_lt_length_of_mem ha)
    (List.idxOf_lt_length_of_mem hb) hab
  rwa [List.getElem_idxOf, List.getElem_idxOf] at hrel

/-- What stands before a name where it stands first. -/
theorem takeWhile_ne_append {before : List α} {a : α} (h : a ∉ before) (after : List α) :
    (before ++ a :: after).takeWhile (· != a) = before := by
  have hbefore : ∀ b ∈ before, (b != a) = true := by
    intro b hb
    exact bne_iff_ne.mpr fun e => h (e ▸ hb)
  rw [List.takeWhile_append_of_pos hbefore, List.takeWhile_cons_of_neg (by simp),
    List.append_nil]

end Provision
