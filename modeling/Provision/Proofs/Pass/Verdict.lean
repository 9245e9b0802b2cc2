import Mathlib.Data.List.Nodup
import Provision.Outcome

/-!
# Verdicts

What an install pass comes to for one target, and how a report tells it. A step of the pass
adds one verdict to the report; what the report tells of other targets stays as it is.

> `add_tells`: what is added is told, if nothing was told before;
> `add_agrees`: nothing else changes.
-/

namespace Provision

/-- What an install pass comes to for a target. -/
inductive Verdict
  /-- The target is not missing. -/
  | unneeded
  /-- The target is not attempted, because of these dependencies. -/
  | skipped (blockers : List String)
  /-- The target is attempted; without an outcome it is installed. -/
  | attempted (o : Option Outcome)

/-- What a report keeps of a verdict. -/
def Verdict.outcome? : Verdict → Option Outcome
  | unneeded => none
  | skipped blockers => some ⟨.skipped, "dependency failed: " ++ ", ".intercalate blockers⟩
  | attempted o => o

namespace InstallReport

/-- Adds a verdict to a report. -/
def add (r : InstallReport) (t : String) : Verdict → InstallReport
  | .unneeded => r
  | .attempted none => { r with installed := r.installed ++ [t] }
  | .attempted (some o) =>
    { r with failed := r.failed ++ [t], outcomes := r.outcomes.insert t o }
  | .skipped blockers =>
    let o : Outcome := ⟨.skipped, "dependency failed: " ++ ", ".intercalate blockers⟩
    { r with skipped := r.skipped ++ [t], outcomes := r.outcomes.insert t o }

/-- Whether a report tells a verdict of a target. -/
structure Tells (r : InstallReport) (t : String) (v : Verdict) : Prop where
  installed : t ∈ r.installed ↔ v = .attempted none
  failed : t ∈ r.failed ↔ ∃ o, v = .attempted (some o)
  skipped : t ∈ r.skipped ↔ ∃ blockers, v = .skipped blockers
  outcome : r.outcomes.get? t = v.outcome?

/-- Whether two reports tell the same of a target. -/
structure Agrees (r r' : InstallReport) (t : String) : Prop where
  installed : t ∈ r'.installed ↔ t ∈ r.installed
  failed : t ∈ r'.failed ↔ t ∈ r.failed
  skipped : t ∈ r'.skipped ↔ t ∈ r.skipped
  outcome : r'.outcomes.get? t = r.outcomes.get? t

variable {r r' r'' : InstallReport} {t d : String} {v : Verdict}

theorem Agrees.refl (r : InstallReport) (t : String) : r.Agrees r t :=
  ⟨Iff.rfl, Iff.rfl, Iff.rfl, rfl⟩

theorem Agrees.trans (h : r.Agrees r' t) (h' : r'.Agrees r'' t) : r.Agrees r'' t :=
  ⟨h'.installed.trans h.installed, h'.failed.trans h.failed, h'.skipped.trans h.skipped,
    h'.outcome.trans h.outcome⟩

/-- A later report that agrees on a target tells the same of it. -/
theorem Tells.of_agrees (h : r.Tells t v) (h' : r.Agrees r' t) : r'.Tells t v :=
  ⟨h'.installed.trans h.installed, h'.failed.trans h.failed, h'.skipped.trans h.skipped,
    h'.outcome.trans h.outcome⟩

/-- An empty report tells nothing. -/
theorem tells_empty (t : String) : ({} : InstallReport).Tells t .unneeded :=
  ⟨by simp, by simp, by simp, Registry.get?_empty t⟩

/-- A target is told of in one list at most. -/
theorem Tells.exclusive (h : r.Tells t v) :
    (t ∈ r.installed → t ∉ r.failed ∧ t ∉ r.skipped) ∧ (t ∈ r.failed → t ∉ r.skipped) := by
  rw [h.installed, h.failed, h.skipped]
  cases v with
  | unneeded => simp
  | skipped blockers => simp
  | attempted o => cases o <;> simp

/-- There is an outcome for what is not attempted or fails. -/
theorem Tells.mem_outcomes_iff (h : r.Tells t v) :
    t ∈ r.outcomes.keys ↔ t ∈ r.failed ∨ t ∈ r.skipped := by
  rw [Registry.mem_keys_iff, h.failed, h.skipped, h.outcome]
  cases v <;> simp [Verdict.outcome?]

/-- What is added is told, if nothing was told before. -/
theorem add_tells (h : r.Tells t .unneeded) (v : Verdict) : (r.add t v).Tells t v := by
  have hinstalled : t ∉ r.installed := by simp [h.installed]
  have hfailed : t ∉ r.failed := by simp [h.failed]
  have hskipped : t ∉ r.skipped := by simp [h.skipped]
  have houtcome : r.outcomes.get? t = none := h.outcome
  cases v with
  | unneeded => exact h
  | skipped blockers =>
    constructor <;> simp [add, hinstalled, hfailed, Registry.get?_insert, Verdict.outcome?]
  | attempted o =>
    cases o with
    | none => constructor <;> simp [add, hfailed, hskipped, houtcome, Verdict.outcome?]
    | some o =>
      constructor <;>
        simp [add, hinstalled, hskipped, Registry.get?_insert, Verdict.outcome?]

/-- Nothing else changes. -/
theorem add_agrees (hd : d ≠ t) (r : InstallReport) (v : Verdict) : r.Agrees (r.add t v) d := by
  cases v with
  | unneeded => exact .refl r d
  | skipped blockers => constructor <;> simp [add, hd, Registry.get?_insert]
  | attempted o =>
    cases o with
    | none => constructor <;> simp [add, hd]
    | some o => constructor <;> simp [add, hd, Registry.get?_insert]

/-- Whether the lists of a report keep the order of some targets. -/
structure InOrder (r : InstallReport) (targets : List String) : Prop where
  installed : r.installed.Sublist targets
  failed : r.failed.Sublist targets
  skipped : r.skipped.Sublist targets

theorem inOrder_empty : ({} : InstallReport).InOrder [] := ⟨.slnil, .slnil, .slnil⟩

/-- Adding a verdict keeps the lists in the order of the pass. -/
theorem InOrder.add {targets : List String} (h : r.InOrder targets) (t : String) (v : Verdict) :
    (r.add t v).InOrder (targets ++ [t]) := by
  have hmore : targets.Sublist (targets ++ [t]) := List.sublist_append_left _ _
  cases v with
  | unneeded => exact ⟨h.installed.trans hmore, h.failed.trans hmore, h.skipped.trans hmore⟩
  | skipped blockers =>
    exact ⟨h.installed.trans hmore, h.failed.trans hmore, h.skipped.append (.refl [t])⟩
  | attempted o =>
    cases o with
    | none => exact ⟨h.installed.append (.refl [t]), h.failed.trans hmore, h.skipped.trans hmore⟩
    | some o =>
      exact ⟨h.installed.trans hmore, h.failed.append (.refl [t]), h.skipped.trans hmore⟩

end InstallReport

end Provision
