import Provision.Proofs.Pass.Install

/-!
# Install passes classify the missing targets

The step of a pass looks at direct dependencies only, at the moment when a target comes up. By
then the verdicts of the dependencies are final, so that being skipped spreads along paths of
dependencies: from a target with an error, or one that failed, over missing targets.

> `mem_skipped_iff`: what is skipped, by paths of dependencies;
> `installMissing_classifies`: each missing target is installed, failed or skipped, and why.
-/

namespace Provision

open Blueprint

/-- Whether a path of dependencies leads from a target to one that has an error or failed. All
targets between the two are missing. -/
inductive Config.Blamed (c : Config) (s : StatusReport) (r : InstallReport) : String → Prop
  | direct {t d : String} (depends : c.DependsOn t d) (broken : d ∈ s.errors ∨ d ∈ r.failed) :
      Blamed c s r t
  | through {t d : String} (depends : c.DependsOn t d) (missing : d ∈ s.missing)
      (blamed : Blamed c s r d) : Blamed c s r t

section Pass

variable {σ : Type} {c : Config} {b : Blueprint} {shell : Shell σ} {s : StatusReport}

variable (shell s)

/-- Each target has a verdict. -/
theorem exists_verdict (h : b.Arranged b.order) (w : World σ) (t : String) :
    ∃ v, ((b.installMissing shell s).run w).1.Tells t v := by
  by_cases ht : t ∈ b.order
  · exact ⟨_, installMissing_tells shell s h w ht⟩
  · exact ⟨_, installMissing_tells_unneeded b shell s w ht⟩

variable {shell s}

/-- A target is skipped exactly if it is missing and a dependency is known to block it. -/
theorem mem_skipped_iff_exists (h : b.Arranged b.order) (w : World σ) {t : String}
    (ht : t ∈ b.order) : t ∈ ((b.installMissing shell s).run w).1.skipped ↔
      t ∈ s.missing ∧ ∃ d ∈ b.dependenciesOf t, d ∈ s.errors ∨
        d ∈ ((b.installMissing shell s).run w).1.failed ∨
        d ∈ ((b.installMissing shell s).run w).1.skipped := by
  rw [judged_skipped_iff (installMissing_tells shell s h w ht), blockers_ne_nil_iff]

/-- A missing target is skipped exactly if a path of dependencies gives a reason. -/
theorem mem_skipped_iff (h : (Loaded.ofConfig c).result = .ok b) (w : World σ) {t : String}
    (ht : t ∈ b.order) (hmissing : t ∈ s.missing) :
    t ∈ ((b.installMissing shell s).run w).1.skipped ↔
      c.Blamed s ((b.installMissing shell s).run w).1 t := by
  have harranged := order_arranged h
  have hdepends := mem_dependenciesOf_of_accepted h
  constructor
  · -- the reason is found by going from dependency to dependency, against the order
    intro hskipped
    refine harranged.induction (P := fun t =>
      t ∈ ((b.installMissing shell s).run w).1.skipped → c.Blamed s _ t) ?_ t ht hskipped
    intro t ht ih hskipped
    obtain ⟨-, d, hd, hblocked⟩ := (mem_skipped_iff_exists harranged w ht).mp hskipped
    rcases hblocked with herror | hfailed | hskipped
    · exact .direct ((hdepends t d).mp hd) (Or.inl herror)
    · exact .direct ((hdepends t d).mp hd) (Or.inr hfailed)
    · have hdorder := (installMissing_inOrder b shell s w).skipped.subset hskipped
      have hdmissing := ((mem_skipped_iff_exists harranged w hdorder).mp hskipped).1
      exact .through ((hdepends t d).mp hd) hdmissing (ih d hd hskipped)
  · intro hblamed
    induction hblamed with
    | @direct t d depends broken =>
      refine (mem_skipped_iff_exists harranged w ht).mpr
        ⟨hmissing, d, (hdepends t d).mpr depends, ?_⟩
      exact broken.imp_right Or.inl
    | @through t d depends missing _ ih =>
      have hdorder := (mem_order_iff h d).mpr (declared_of_accepted h depends)
      exact (mem_skipped_iff_exists harranged w ht).mpr
        ⟨hmissing, d, (hdepends t d).mpr depends, Or.inr (Or.inr (ih hdorder missing))⟩

/-! ## The classes of a pass -/

variable (shell s)

/-- All that is told of is missing and declared, and the other way round. -/
theorem mem_lists_iff (h : (Loaded.ofConfig c).result = .ok b) (w : World σ) (t : String) :
    t ∈ ((b.installMissing shell s).run w).1.installed ++
        ((b.installMissing shell s).run w).1.failed ++
        ((b.installMissing shell s).run w).1.skipped ↔
      t ∈ c.targets.keys ∧ t ∈ s.missing := by
  rw [← mem_order_iff h, List.mem_append, List.mem_append]
  by_cases ht : t ∈ b.order
  · have hverdict := installMissing_tells shell s (order_arranged h) w ht
    rw [judged_attempted_iff hverdict, judged_skipped_iff hverdict]
    tauto
  · have hverdict := installMissing_tells_unneeded b shell s w ht
    simp [hverdict.installed, hverdict.failed, hverdict.skipped, ht]

/-- The lists of a report have nothing in common, and nothing twice. -/
theorem lists_nodup (h : b.Arranged b.order) (w : World σ) :
    (((b.installMissing shell s).run w).1.installed ++
      ((b.installMissing shell s).run w).1.failed ++
      ((b.installMissing shell s).run w).1.skipped).Nodup := by
  have horder := installMissing_inOrder b shell s w
  rw [List.nodup_append, List.nodup_append]
  refine ⟨⟨h.nodup.sublist horder.installed, h.nodup.sublist horder.failed, ?_⟩,
    h.nodup.sublist horder.skipped, ?_⟩
  · rintro t hinstalled _ hfailed rfl
    obtain ⟨v, hv⟩ := exists_verdict shell s h w t
    exact (hv.exclusive.1 hinstalled).1 hfailed
  · rintro t hattempted _ hskipped rfl
    obtain ⟨v, hv⟩ := exists_verdict shell s h w t
    rcases List.mem_append.mp hattempted with hinstalled | hfailed
    · exact (hv.exclusive.1 hinstalled).2 hskipped
    · exact hv.exclusive.2 hfailed hskipped

/-- A pass succeeds exactly if all that was missing is installed. -/
theorem success_iff (h : (Loaded.ofConfig c).result = .ok b) (w : World σ) :
    ((b.installMissing shell s).run w).1.success = true ↔
      ∀ t ∈ c.targets.keys, t ∈ s.missing →
        t ∈ ((b.installMissing shell s).run w).1.installed := by
  have hlists := mem_lists_iff shell s h w
  have hverdict := exists_verdict shell s (order_arranged h) w
  generalize ((b.installMissing shell s).run w).1 = r at hlists hverdict ⊢
  rw [InstallReport.success, Bool.and_eq_true, List.isEmpty_iff, List.isEmpty_iff]
  constructor
  · rintro ⟨hfailed, hskipped⟩ t ht hmissing
    simpa [hfailed, hskipped] using (hlists t).mpr ⟨ht, hmissing⟩
  · intro hall
    have hinstalled : ∀ t, t ∈ r.installed ++ r.failed ++ r.skipped → t ∈ r.installed :=
      fun t ht => hall t ((hlists t).mp ht).1 ((hlists t).mp ht).2
    constructor
    · refine List.eq_nil_iff_forall_not_mem.mpr fun t ht => ?_
      obtain ⟨v, hv⟩ := hverdict t
      exact (hv.exclusive.1 (hinstalled t (by simp [ht]))).1 ht
    · refine List.eq_nil_iff_forall_not_mem.mpr fun t ht => ?_
      obtain ⟨v, hv⟩ := hverdict t
      exact (hv.exclusive.1 (hinstalled t (by simp [ht]))).2 ht

end Pass

/-- **Install passes classify the missing targets.** The lists of the report are in the order of
installation and share nothing; together they are the declared targets that are missing. A
missing target is skipped exactly if a path of dependencies gives a reason. Any other one is
attempted when it comes up, and the attempt decides whether it is installed or has failed. There
are outcomes for what failed and for what was skipped only: the outcome of the attempt, or the
direct dependencies that block the target. The pass succeeds exactly if all that was missing is
installed. -/
theorem installMissing_classifies {σ : Type} {c : Config} {b : Blueprint}
    (h : (Loaded.ofConfig c).result = .ok b) (shell : Shell σ) (s : StatusReport)
    (w : World σ) :
    let r := ((b.installMissing shell s).run w).1
    let result := fun t =>
      ((b.installTarget shell t).run ((b.installBefore shell s t).run w).2).1
    r.InOrder b.order ∧
    (r.installed ++ r.failed ++ r.skipped).Nodup ∧
    (∀ t, t ∈ r.installed ++ r.failed ++ r.skipped ↔ t ∈ c.targets.keys ∧ t ∈ s.missing) ∧
    (∀ t ∈ c.targets.keys, t ∈ s.missing → (t ∈ r.skipped ↔ c.Blamed s r t)) ∧
    (∀ t ∈ c.targets.keys, t ∈ s.missing → t ∉ r.skipped →
      (t ∈ r.installed ↔ result t = none) ∧ (t ∈ r.failed ↔ ∃ o, result t = some o)) ∧
    (∀ t, t ∈ r.outcomes.keys ↔ t ∈ r.failed ∨ t ∈ r.skipped) ∧
    (∀ t ∈ r.failed, r.outcomes.get? t = result t) ∧
    (∀ t ∈ r.skipped, r.outcomes.get? t = some ⟨.skipped, "dependency failed: " ++
      ", ".intercalate ((b.dependenciesOf t).filter fun d =>
        d ∈ s.errors ∨ d ∈ r.failed ∨ d ∈ r.skipped)⟩) ∧
    (r.success = true ↔ ∀ t ∈ c.targets.keys, t ∈ s.missing → t ∈ r.installed) := by
  intro r result
  have harranged := order_arranged h
  have horder : r.InOrder b.order := installMissing_inOrder b shell s w
  have hverdict : ∀ t ∈ b.order, r.Tells t
      (b.judge shell s r t ((b.installBefore shell s t).run w).2.state) :=
    fun t => installMissing_tells shell s harranged w
  have hresult : ∀ t, result t =
      (b.attempt shell t ((b.installBefore shell s t).run w).2.state).1 := by
    intro t
    obtain ⟨st', -, hrun⟩ := b.attempt_run shell t ((b.installBefore shell s t).run w).2
    show ((b.installTarget shell t).run ((b.installBefore shell s t).run w).2).1 = _
    rw [hrun]
  refine ⟨horder, lists_nodup shell s harranged w, mem_lists_iff shell s h w, fun t ht hmissing => ?_,
    fun t ht hmissing hnot => ?_, fun t => ?_, fun t hfailed => ?_, fun t hskipped => ?_,
    success_iff shell s h w⟩
  · exact mem_skipped_iff h w ((mem_order_iff h t).mpr ht) hmissing
  · have hv := hverdict t ((mem_order_iff h t).mpr ht)
    have hfree : b.blockers s r t = [] := by
      by_contra hblockers
      exact hnot ((judged_skipped_iff hv).mpr ⟨hmissing, hblockers⟩)
    rw [judged_installed_iff hv, judged_failed_iff hv, hresult]
    simp [hmissing, hfree]
  · obtain ⟨v, hv⟩ := exists_verdict shell s harranged w t
    exact hv.mem_outcomes_iff
  · have hv := hverdict t (horder.failed.subset hfailed)
    obtain ⟨hmissing, hfree, -⟩ := (judged_failed_iff hv).mp hfailed
    rw [hv.outcome, judge_eq_attempted_iff.mpr ⟨hmissing, hfree, rfl⟩, hresult]
    rfl
  · have hv := hverdict t (horder.skipped.subset hskipped)
    obtain ⟨hmissing, hblockers⟩ := (judged_skipped_iff hv).mp hskipped
    have heq : b.blockers s r t = (b.dependenciesOf t).filter fun d =>
        d ∈ s.errors ∨ d ∈ r.failed ∨ d ∈ r.skipped :=
      List.filter_congr fun d _ => by
        rw [Bool.eq_iff_iff, isBlocked_iff, decide_eq_true_iff]
    rw [hv.outcome, judge_eq_skipped_iff.mpr ⟨hmissing, hblockers, heq⟩]
    rfl

/-- With a shell that refuses one command, the target on top is skipped. -/
theorem installMissing_classifies_layered :
    (Loaded.ofConfig .layered).result = .ok (ofConfig .layered) ∧
    "app" ∈ (((ofConfig .layered).installMissing (.stumbling "make lib")
      { missing := ["app", "lib", "base"] }).run ⟨0, []⟩).1.skipped := by
  obtain ⟨-, -, -, hskipped, -⟩ := installMissing_classifies layered_accepted
    (.stumbling "make lib") { missing := ["app", "lib", "base"] } ⟨0, []⟩
  refine ⟨layered_accepted, (hskipped "app" (by decide) (by decide)).mpr ?_⟩
  exact .direct (d := "lib") (by decide) (by decide)

end Provision
