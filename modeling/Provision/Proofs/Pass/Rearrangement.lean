import Provision.Proofs.Pass.Classification
import Provision.Proofs.Pass.Safety

/-!
# The order of declaration does not matter to an install pass

A pass puts each target into a class: installed, failed, skipped or untouched. Two configurations
that declare the same targets in different orders are traversed in different orders. But the class
of a target follows from what the attempt at it comes to and from the classes of its
dependencies; since dependencies form no circle, there is one solution to these equations,
whatever the order. For the same reason the result of an attempt matters to the target and to
those that depend on it, and to no other.

> `classOf_installMissing`: the equation that the class of each target solves;
> `classOf_congr`: the class of a target follows from the results of all that it depends on;
> `classOf_rearranged`: it is the same in any order, and a result only matters to dependents.
-/

namespace Provision

open Relation (ReflTransGen TransGen)

/-! ## Classes -/

/-- What a report makes of a target. -/
inductive TargetClass
  | installed | failed | skipped
  /-- The report does not tell of the target. -/
  | untouched
deriving DecidableEq, Repr

/-- The class of a target in a report. -/
def InstallReport.classOf (r : InstallReport) (t : String) : TargetClass :=
  if t ∈ r.installed then .installed
  else if t ∈ r.failed then .failed
  else if t ∈ r.skipped then .skipped
  else .untouched

/-- The class that a verdict stands for. -/
def Verdict.class : Verdict → TargetClass
  | unneeded => .untouched
  | skipped _ => .skipped
  | attempted none => .installed
  | attempted (some _) => .failed

namespace InstallReport

variable {r : InstallReport} {t : String} {v : Verdict}

/-- The class of a target is that of the verdict on it. -/
theorem Tells.classOf_eq (h : r.Tells t v) : r.classOf t = v.class := by
  rw [classOf]
  cases v with
  | unneeded =>
    rw [if_neg (by simp [h.installed]), if_neg (by simp [h.failed]), if_neg (by simp [h.skipped])]
    rfl
  | skipped blockers =>
    rw [if_neg (by simp [h.installed]), if_neg (by simp [h.failed]), if_pos (by simp [h.skipped])]
    rfl
  | attempted o =>
    cases o with
    | none =>
      rw [if_pos (by simp [h.installed])]
      rfl
    | some o =>
      rw [if_neg (by simp [h.installed]), if_pos (by simp [h.failed])]
      rfl

/-- Whether a target has failed or was skipped can be seen from its class. -/
theorem Tells.mem_failed_or_skipped_iff (h : r.Tells t v) :
    t ∈ r.failed ∨ t ∈ r.skipped ↔ r.classOf t = .failed ∨ r.classOf t = .skipped := by
  rw [h.classOf_eq, h.failed, h.skipped]
  cases v with
  | unneeded => simp [Verdict.class]
  | skipped blockers => simp [Verdict.class]
  | attempted o => cases o <;> simp [Verdict.class]

end InstallReport

/-! ## The equation of a class -/

namespace Blueprint

/-- Whether the attempts of a pass come to given results: each target that is attempted, to its
own one. -/
def ComesTo {σ : Type} (b : Blueprint) (shell : Shell σ) (s : StatusReport) (w : World σ)
    (result : String → Option Outcome) : Prop :=
  ∀ t, b.Attempted shell s w t → (b.attemptIn shell s w t).1 = result t

variable {σ σ' : Type} {b b' : Blueprint} {shell : Shell σ} {shell' : Shell σ'}
  {s s' : StatusReport} {w : World σ} {w' : World σ'} {result result' : String → Option Outcome}

variable (shell s w) in
/-- A target is blocked exactly if a dependency has an error, or is in a class that blocks. -/
theorem exists_blocker_iff (h : b.Arranged b.order) (t : String) :
    b.blockers s ((b.installMissing shell s).run w).1 t ≠ [] ↔
      ∃ d ∈ b.dependenciesOf t, d ∈ s.errors ∨
        ((b.installMissing shell s).run w).1.classOf d = .failed ∨
        ((b.installMissing shell s).run w).1.classOf d = .skipped := by
  rw [blockers_ne_nil_iff]
  refine exists_congr fun d => and_congr_right fun _ => or_congr_right ?_
  obtain ⟨v, hv⟩ := exists_verdict shell s h w d
  exact hv.mem_failed_or_skipped_iff

/-- **The class of a target of the order follows from the classes of its dependencies and the
result of its attempt.** -/
theorem classOf_installMissing (h : b.Arranged b.order) (hresult : b.ComesTo shell s w result)
    {t : String} (ht : t ∈ b.order) :
    ((b.installMissing shell s).run w).1.classOf t =
      if t ∉ s.missing then .untouched
      else if ∃ d ∈ b.dependenciesOf t, d ∈ s.errors ∨
          ((b.installMissing shell s).run w).1.classOf d = .failed ∨
          ((b.installMissing shell s).run w).1.classOf d = .skipped then .skipped
      else if result t = none then .installed
      else .failed := by
  have hverdict := installMissing_tells shell s h w ht
  have hblocked := exists_blocker_iff shell s w h t
  rw [hverdict.classOf_eq, judge]
  by_cases hmissing : t ∈ s.missing
  · rw [if_pos hmissing, if_neg (not_not.mpr hmissing)]
    by_cases hfree : b.blockers s ((b.installMissing shell s).run w).1 t = []
    · rw [if_pos hfree, if_neg (fun hexists => hblocked.mpr hexists hfree)]
      -- the target is attempted, so that the result of the attempt is the given one
      have hattempted : b.Attempted shell s w t :=
        (judged_attempted_iff hverdict).mpr ⟨hmissing, hfree⟩
      have houtcome := hresult t hattempted
      rw [attemptIn] at houtcome
      rw [houtcome]
      cases result t <;> rfl
    · rw [if_neg hfree, if_pos (hblocked.mp hfree)]
      rfl
  · rw [if_neg hmissing, if_pos hmissing]
    rfl

/-- A target outside of the order is left untouched. -/
theorem classOf_of_notMem_order {t : String} (ht : t ∉ b.order) :
    ((b.installMissing shell s).run w).1.classOf t = .untouched :=
  (installMissing_tells_unneeded b shell s w ht).classOf_eq

/-- **The class of a target follows from the results of all that it depends on.** It is the same
in two passes over the same targets with the same dependencies, in whatever orders, if the same of
them succeed among the target and all that it depends on. -/
theorem classOf_congr (h : b.Arranged b.order) (h' : b'.Arranged b'.order)
    (horder : ∀ t, t ∈ b.order ↔ t ∈ b'.order)
    (hdependencies : ∀ t d, d ∈ b.dependenciesOf t ↔ d ∈ b'.dependenciesOf t)
    (hmissing : ∀ t, t ∈ s.missing ↔ t ∈ s'.missing)
    (herrors : ∀ t, t ∈ s.errors ↔ t ∈ s'.errors)
    (hresult : b.ComesTo shell s w result) (hresult' : b'.ComesTo shell' s' w' result')
    {t : String} (hagree : ∀ d, ReflTransGen (fun t d => d ∈ b.dependenciesOf t) t d →
      (result d = none ↔ result' d = none)) :
    ((b.installMissing shell s).run w).1.classOf t =
      ((b'.installMissing shell' s').run w').1.classOf t := by
  by_cases ht : t ∈ b.order
  · -- by induction along the first order, in which dependencies come first
    revert hagree
    refine h.induction (P := fun t => (∀ d, ReflTransGen (fun t d => d ∈ b.dependenciesOf t) t d →
      (result d = none ↔ result' d = none)) → _ = _) ?_ t ht
    intro t ht ih hagree
    have hclass : ∀ d ∈ b.dependenciesOf t, ((b.installMissing shell s).run w).1.classOf d =
        ((b'.installMissing shell' s').run w').1.classOf d :=
      fun d hd => ih d hd fun e he => hagree e (.head hd he)
    rw [classOf_installMissing h hresult ht, classOf_installMissing h' hresult' ((horder t).mp ht)]
    refine if_congr (not_congr (hmissing t)) rfl (if_congr ?_ rfl (if_congr ?_ rfl rfl))
    · -- the same dependencies are in the same classes
      refine exists_congr fun d => ?_
      rw [← hdependencies t d]
      refine and_congr_right fun hd => ?_
      rw [herrors d, hclass d hd]
    · exact hagree t .refl
  · rw [classOf_of_notMem_order ht, classOf_of_notMem_order (mt (horder t).mpr ht)]

end Blueprint

/-! ## Two orders of declaration -/

/-- Whether two configurations declare the same targets with the same dependencies, in whatever
order and however often the dependencies are written. -/
structure Config.SameTargets (c c' : Config) : Prop where
  targets : ∀ t, t ∈ c.targets.keys ↔ t ∈ c'.targets.keys
  dependsOn : ∀ t d, c.DependsOn t d ↔ c'.DependsOn t d

/-- **The order of declaration does not matter to an install pass.** Where the attempts come to
the same results, a pass over the same targets, written in another order, puts each target into
the same class. Where one target comes to another result, the class of this target and of those
that depend on it, directly or not, may change, and no other. -/
theorem classOf_rearranged {σ σ' : Type} {c c' : Config} {b b' : Blueprint}
    (h : (Loaded.ofConfig c).result = .ok b) (h' : (Loaded.ofConfig c').result = .ok b')
    (hsame : c.SameTargets c') (shell : Shell σ) (shell' : Shell σ') {s s' : StatusReport}
    (hmissing : ∀ t, t ∈ s.missing ↔ t ∈ s'.missing)
    (herrors : ∀ t, t ∈ s.errors ↔ t ∈ s'.errors) (w : World σ) (w' : World σ')
    (result : String → Option Outcome) (hresult : b.ComesTo shell s w result) :
    let r := ((b.installMissing shell s).run w).1
    let r' := ((b'.installMissing shell' s').run w').1
    (b'.ComesTo shell' s' w' result → ∀ t, r.classOf t = r'.classOf t) ∧
    ∀ t result', (∀ u, u ≠ t → result' u = result u) → b'.ComesTo shell' s' w' result' →
      ∀ u, r.classOf u ≠ r'.classOf u → u = t ∨ TransGen c.DependsOn u t := by
  intro r r'
  have horder : ∀ t, t ∈ b.order ↔ t ∈ b'.order := by
    intro t
    rw [mem_order_iff h, mem_order_iff h', hsame.targets]
  have hdependencies : ∀ t d, d ∈ b.dependenciesOf t ↔ d ∈ b'.dependenciesOf t := by
    intro t d
    rw [mem_dependenciesOf_of_accepted h, mem_dependenciesOf_of_accepted h', hsame.dependsOn]
  have hneeds : (fun t d => d ∈ b.dependenciesOf t) = c.DependsOn := by
    funext t d
    exact propext (mem_dependenciesOf_of_accepted h t d)
  refine ⟨fun hresult' t => ?_, fun t result' hothers hresult' u => ?_⟩
  · exact Blueprint.classOf_congr (order_arranged h) (order_arranged h') horder hdependencies
      hmissing herrors hresult hresult' fun d _ => Iff.rfl
  · contrapose!
    rintro ⟨hne, hnot⟩
    refine Blueprint.classOf_congr (order_arranged h) (order_arranged h') horder hdependencies
      hmissing herrors hresult hresult' fun d hd => ?_
    rw [hneeds, Relation.reflTransGen_iff_eq_or_transGen] at hd
    -- what the target depends on is not the one whose result has changed
    have hd : d ≠ t := by
      rintro rfl
      exact hd.elim hne.symm hnot
    rw [hothers d hd]

/-- The targets of `Config.layered` in another order, with a dependency written once. -/
def Config.relayered : Config where
  version := "1.0"
  name := "relayered"
  targets :=
    ⟨[("base", { recipe := [.command "make base"] }),
      ("app", { dependsOn := ["base", "lib"], recipe := [.command "make app"] }),
      ("lib", { dependsOn := ["base"], recipe := [.command "make lib"] })], by decide⟩

/-- The rearranged configuration of the example is accepted. -/
theorem relayered_accepted :
    (Loaded.ofConfig .relayered).result = .ok (.ofConfig .relayered) :=
  (Loaded.ofConfig_eq_ok_iff _ _).mpr ⟨rfl, by decide⟩

/-- The two configurations of the example declare the same targets and the same sets of
dependencies. -/
theorem layered_sameTargets : Config.layered.SameTargets .relayered := by
  have hperm : Config.layered.targets.keys.Perm Config.relayered.targets.keys := by decide
  refine ⟨fun t => hperm.mem_iff, fun t d => ?_⟩
  by_cases ht : t ∈ Config.layered.targets.keys
  · -- each declared target is written in both configurations
    simp only [Config.layered, Registry.keys, List.map_cons, List.map_nil, List.mem_cons,
      List.not_mem_nil, or_false] at ht
    rcases ht with rfl | rfl | rfl
    · show d ∈ ["lib", "base", "lib"] ↔ d ∈ ["base", "lib"]
      simp only [List.mem_cons, List.not_mem_nil, or_false]
      tauto
    · exact Iff.rfl
    · exact Iff.rfl
  · have hnone := (Registry.get?_eq_none_iff _ _).mpr ht
    have hnone' := (Registry.get?_eq_none_iff _ _).mpr (mt hperm.mem_iff.mpr ht)
    simp [Config.DependsOn, Config.declared, hnone, hnone']

/-- The results of attempts where the second of three targets cannot be made. -/
def stumblingResult (t : String) : Option Outcome := if t = "lib" then some ⟨.error, ""⟩ else none

/-- Whoever makes these targets with this shell comes to these results. -/
theorem comesTo_stumbling {b : Blueprint} {s : StatusReport}
    (horder : ∀ t ∈ b.order, t = "base" ∨ t = "lib" ∨ t = "app")
    (hattempt : ∀ t ∈ ["base", "lib", "app"], ∀ st,
      (b.attempt (.stumbling "make lib") t st).1 = stumblingResult t) (w : World Nat) :
    b.ComesTo (.stumbling "make lib") s w stumblingResult := by
  intro t hattempted
  refine hattempt t ?_ _
  simpa using horder t hattempted.mem_order

/-- A target that depends on one which cannot be made is skipped in either order. -/
theorem classOf_rearranged_layered :
    let r := (((Blueprint.ofConfig .layered).installMissing (.stumbling "make lib")
      { missing := ["app", "lib", "base"] }).run ⟨0, []⟩).1
    let r' := (((Blueprint.ofConfig .relayered).installMissing (.stumbling "make lib")
      { missing := ["base", "app", "lib"] }).run ⟨0, []⟩).1
    (Loaded.ofConfig .layered).result = .ok (.ofConfig .layered) ∧
    (Loaded.ofConfig .relayered).result = .ok (.ofConfig .relayered) ∧
    Config.layered.SameTargets .relayered ∧
    r.classOf "base" = .installed ∧ r.classOf "lib" = .failed ∧ r.classOf "app" = .skipped ∧
    r'.classOf "base" = .installed ∧ r'.classOf "lib" = .failed ∧ r'.classOf "app" = .skipped := by
  intro r r'
  have hresult : (Blueprint.ofConfig .layered).ComesTo (.stumbling "make lib")
      { missing := ["app", "lib", "base"] } ⟨0, []⟩ stumblingResult := by
    refine comesTo_stumbling (by decide) (fun t ht st => ?_) _
    simp only [List.mem_cons, List.not_mem_nil, or_false] at ht
    rcases ht with rfl | rfl | rfl <;> rfl
  have hresult' : (Blueprint.ofConfig .relayered).ComesTo (.stumbling "make lib")
      { missing := ["base", "app", "lib"] } ⟨0, []⟩ stumblingResult := by
    refine comesTo_stumbling (by decide) (fun t ht st => ?_) _
    simp only [List.mem_cons, List.not_mem_nil, or_false] at ht
    rcases ht with rfl | rfl | rfl <;> rfl
  let s : StatusReport := { missing := ["app", "lib", "base"] }
  let s' : StatusReport := { missing := ["base", "app", "lib"] }
  have hmissing : ∀ t, t ∈ s.missing ↔ t ∈ s'.missing := by
    intro t
    simp only [s, s', List.mem_cons, List.not_mem_nil, or_false]
    tauto
  have herrors : ∀ t, t ∈ s.errors ↔ t ∈ s'.errors := fun _ => Iff.rfl
  have hsame : ∀ t, r.classOf t = r'.classOf t :=
    (classOf_rearranged layered_accepted relayered_accepted layered_sameTargets
      (.stumbling "make lib") (.stumbling "make lib") hmissing herrors ⟨0, []⟩ ⟨0, []⟩
      stumblingResult hresult).1 hresult'
  have hclasses : r.classOf "base" = .installed ∧ r.classOf "lib" = .failed ∧
      r.classOf "app" = .skipped := by
    decide
  refine ⟨layered_accepted, relayered_accepted, layered_sameTargets, hclasses.1, hclasses.2.1,
    hclasses.2.2, ?_⟩
  rw [← hsame, ← hsame, ← hsame]
  exact hclasses

end Provision
