import Provision.Proofs.Validation.Report

/-!
# Validation is exact

The report of a configuration holds each violation that the configuration gives reason for, in
order, and nothing else; only of cycles one is chosen for the dependencies and one for the
recipes. So a configuration is accepted exactly if it breaks no rule.

> `violations_sorted`: the report is strictly ordered, so that nothing is told twice;
> `mem_violations_iff`: cycles apart, what is told is what is broken;
> `violations_exact`: both together, with cycles and acceptance.
-/

namespace Provision

open Blueprint (ofConfig)

variable (c : Config)

/-- All violations together are sorted by rule and by place. -/
theorem violations_sorted : c.Sorted 0 8 (ofConfig c).violations := by
  have hheader := (headerViolations_sorted c).append (dependencyViolations_sorted c)
    (by decide) (by decide) (by decide)
  have hreferences := hheader.append (invocationViolations_sorted c)
    (by decide) (by decide) (by decide)
  have hcycles := hreferences.append (cycleViolations_sorted c)
    (by decide) (by decide) (by decide)
  have hroots := hcycles.append (rootViolations_sorted c) (by decide) (by decide) (by decide)
  exact hroots.append (allProcedureViolations_sorted c) (by decide) (by decide) (by decide)

/-- Two violations of a report that neither comes before the other are the same. -/
theorem eq_of_not_before {v w : Violation} (hv : v ∈ (ofConfig c).violations)
    (hw : w ∈ (ofConfig c).violations) (hvw : ¬ c.Before v w) (hwv : ¬ c.Before w v) : v = w :=
  (((violations_sorted c).comparable v hv w hw).resolve_left hvw).resolve_left hwv

/-- The report by its parts: each rule in its own, cycles in theirs. -/
theorem mem_violations (v : Violation) : v ∈ (ofConfig c).violations ↔
    (c.Breaks v ∧ v.rule ≠ 5 ∧ v.rule ≠ 6) ∨ v ∈ (ofConfig c).cycleViolations := by
  have hrange : v.rule ≤ 8 := by
    unfold Violation.rule
    split <;> omega
  rw [Blueprint.violations]
  simp only [List.mem_append, mem_headerViolations, mem_dependencyViolations,
    mem_invocationViolations, mem_rootViolations, mem_allProcedureViolations]
  constructor
  · rintro (((((⟨h, hr⟩ | ⟨h, hr⟩) | ⟨h, hr⟩) | h) | ⟨h, hr⟩) | ⟨h, hr⟩)
    · exact Or.inl ⟨h, by omega, by omega⟩
    · exact Or.inl ⟨h, by omega, by omega⟩
    · exact Or.inl ⟨h, by omega, by omega⟩
    · exact Or.inr h
    · exact Or.inl ⟨h, by omega, by omega⟩
    · exact Or.inl ⟨h, by omega, by omega⟩
  · rintro (⟨h, h5, h6⟩ | h)
    · simp only [h, true_and]
      omega
    · exact Or.inl (Or.inl (Or.inr h))

/-- What is told is broken. -/
theorem breaks_of_mem_violations {v : Violation} (h : v ∈ (ofConfig c).violations) :
    c.Breaks v := by
  rcases (mem_violations c v).mp h with h | h
  · exact h.1
  · exact (cycleViolations_breaks c h).1

/-- Cycles apart, what is told is what is broken. -/
theorem mem_violations_iff {v : Violation} (hpath : v.path? = none) :
    v ∈ (ofConfig c).violations ↔ c.Breaks v := by
  refine ⟨breaks_of_mem_violations c, fun h => (mem_violations c v).mpr (Or.inl ⟨h, ?_⟩)⟩
  cases h with
  | @unknownRecipe o r _ _ => cases o <;> simp [Violation.rule]
  | dependencyCycle _ => simp [Violation.path?] at hpath
  | recipeCycle _ => simp [Violation.path?] at hpath
  | _ => simp [Violation.rule]

/-- A dependency cycle is told exactly if there is one. -/
theorem exists_dependencyCycle_mem_iff :
    (∃ path, .dependencyCycle path ∈ (ofConfig c).violations) ↔ Cyclic c.Needs := by
  rw [← exists_dependencyCycle_iff]
  simp [mem_violations, Violation.rule]

/-- A recipe cycle is told exactly if there is one. -/
theorem exists_recipeCycle_mem_iff :
    (∃ path, .recipeCycle path ∈ (ofConfig c).violations) ↔ Cyclic c.Nests := by
  rw [← exists_recipeCycle_iff]
  simp [mem_violations, Violation.rule]

/-- A report is empty exactly if no rule is broken. -/
theorem violations_eq_nil_iff : (ofConfig c).violations = [] ↔ ∀ v, ¬ c.Breaks v := by
  constructor
  · intro hnil v hbreaks
    have hnone : ∀ w, w ∉ (ofConfig c).violations := by simp [hnil]
    cases hpath : v.path? with
    | none => exact hnone v ((mem_violations_iff c hpath).mpr hbreaks)
    | some path =>
      cases hbreaks with
      | dependencyCycle h =>
        obtain ⟨p, hp⟩ := (exists_dependencyCycle_mem_iff c).mpr h.cyclic
        exact hnone _ hp
      | recipeCycle h =>
        obtain ⟨p, hp⟩ := (exists_recipeCycle_mem_iff c).mpr h.cyclic
        exact hnone _ hp
      | _ => simp [Violation.path?] at hpath
  · intro h
    rw [List.eq_nil_iff_forall_not_mem]
    exact fun v hv => h v (breaks_of_mem_violations c hv)

/-- A configuration is accepted exactly if it breaks no rule. -/
theorem accepted_iff : (∃ b, (Loaded.ofConfig c).result = .ok b) ↔ ∀ v, ¬ c.Breaks v := by
  rw [← violations_eq_nil_iff]
  simp [Loaded.ofConfig_eq_ok_iff]

/-- **Validation is exact.** The report is strictly ordered, and nothing in it is told twice.
What it tells is broken, and all that is broken is told: cycles apart, each violation itself;
of the dependency cycles and of the recipe cycles exactly one. A target is told of at most once
for its procedure. A configuration is accepted exactly if it breaks no rule. -/
theorem violations_exact :
    (ofConfig c).violations.Pairwise c.Before ∧ (ofConfig c).violations.Nodup ∧
    (∀ v ∈ (ofConfig c).violations, c.Breaks v) ∧
    (∀ v, v.path? = none → (v ∈ (ofConfig c).violations ↔ c.Breaks v)) ∧
    ((∃! path, .dependencyCycle path ∈ (ofConfig c).violations) ↔ Cyclic c.Needs) ∧
    ((∃! path, .recipeCycle path ∈ (ofConfig c).violations) ↔ Cyclic c.Nests) ∧
    (∀ t, ∀ v ∈ (ofConfig c).violations, ∀ w ∈ (ofConfig c).violations,
      v.IsProcedureOf t → w.IsProcedureOf t → v = w) ∧
    ((∃ b, (Loaded.ofConfig c).result = .ok b) ↔ ∀ v, ¬ c.Breaks v) := by
  have hsame : ∀ v ∈ (ofConfig c).violations, ∀ w ∈ (ofConfig c).violations,
      v.rule = w.rule → c.ownerPlace v = c.ownerPlace w → c.namePlace v = c.namePlace w →
      v = w := by
    intro v hv w hw hrule howner hname
    refine eq_of_not_before c hv hw ?_ ?_
    · unfold Config.Before
      omega
    · unfold Config.Before
      omega
  have hprocedure : ∀ t v, v.IsProcedureOf t →
      v.rule = 8 ∧ c.ownerPlace v = c.targets.keys.idxOf t ∧ c.namePlace v = 0 := by
    intro t v hv
    cases v with
    | emptyProcedure _ => obtain rfl := hv; exact ⟨rfl, rfl, rfl⟩
    | noCheckCommand _ => obtain rfl := hv; exact ⟨rfl, rfl, rfl⟩
    | recipeWithoutCheck _ _ => obtain rfl := hv; exact ⟨rfl, rfl, rfl⟩
    | _ => exact hv.elim
  refine ⟨(violations_sorted c).pairwise, ?_, fun v => breaks_of_mem_violations c,
    fun v => mem_violations_iff c, ?_, ?_, ?_, accepted_iff c⟩
  · refine (violations_sorted c).pairwise.imp ?_
    rintro v w h rfl
    exact Config.Before.irrefl c v h
  · -- two cycles of one rule have the same place, so that they are one
    rw [← exists_dependencyCycle_mem_iff]
    refine ⟨ExistsUnique.exists, fun ⟨path, hpath⟩ => ⟨path, hpath, fun other hother => ?_⟩⟩
    exact Violation.dependencyCycle.inj (hsame _ hother _ hpath rfl rfl rfl)
  · rw [← exists_recipeCycle_mem_iff]
    refine ⟨ExistsUnique.exists, fun ⟨path, hpath⟩ => ⟨path, hpath, fun other hother => ?_⟩⟩
    exact Violation.recipeCycle.inj (hsame _ hother _ hpath rfl rfl rfl)
  · intro t v hv w hw hvt hwt
    obtain ⟨hrule, howner, hname⟩ := hprocedure t v hvt
    obtain ⟨hrule', howner', hname'⟩ := hprocedure t w hwt
    exact hsame v hv w hw (hrule.trans hrule'.symm) (howner.trans howner'.symm)
      (hname.trans hname'.symm)

end Provision
