import Provision.Proofs.Pass.Install

/-!
# Install passes are safe

Whatever the shell does, a command is run for a missing target only, and only after all of its
dependencies that were missing have been installed. This rests on the order: when a target
comes up, the verdicts of its dependencies are final.

> `installMissing_safe`: what is run, and what is true of a target when it is attempted.
-/

namespace Provision

open Blueprint

variable {σ : Type} {c : Config} {b : Blueprint} {shell : Shell σ} {s : StatusReport}
  {w : World σ} {t d : String}

/-- What is told of in a report is in the order of its pass. -/
theorem Blueprint.Attempted.mem_order (h : b.Attempted shell s w t) : t ∈ b.order := by
  have horder := installMissing_inOrder b shell s w
  exact h.elim (fun ht => horder.installed.subset ht) (fun ht => horder.failed.subset ht)

/-- Nothing blocks a target that is attempted. -/
theorem Blueprint.Attempted.free (harranged : b.Arranged b.order)
    (h : b.Attempted shell s w t) : t ∈ s.missing ∧
      b.blockers s ((b.installMissing shell s).run w).1 t = [] :=
  (judged_attempted_iff (installMissing_tells shell s harranged w h.mem_order)).mp h

/-- What is run for a target that is installed are all of its commands, and they end well. -/
theorem installed_succeeded (harranged : b.Arranged b.order) (hd : d ∈ b.order)
    (h : d ∈ ((b.installMissing shell s).run w).1.installed) :
    b.installCommands d = .ok ((b.attemptIn shell s w d).2.map Execution.command) ∧
      ∀ e ∈ (b.attemptIn shell s w d).2, e.Succeeded := by
  obtain ⟨-, -, hnone⟩ := (judged_installed_iff (installMissing_tells shell s harranged w hd)).mp h
  obtain ⟨st', hattempts, -⟩ := b.attempt_run shell d ((b.installBefore shell s d).run w).2
  rw [hnone] at hattempts
  exact hattempts.succeeded

/-- A missing dependency of a target that is attempted is known to be installed. -/
theorem Blueprint.Attempted.dependency (harranged : b.Arranged b.order)
    (h : b.Attempted shell s w t) (hd : d ∈ b.dependenciesOf t) :
    d ∉ s.errors ∧ (d ∈ s.missing →
      d ∈ b.order ∧ d ∈ ((b.installMissing shell s).run w).1.installed ∧
      d ∈ ((b.installBefore shell s t).run w).1.installed) := by
  obtain ⟨-, hfree⟩ := h.free harranged
  obtain ⟨horder, hagrees⟩ := installBefore_agrees shell s harranged w
    h.mem_order hd
  have hnot := fun hblocked => (blockers_ne_nil_iff _ t).mpr ⟨d, hd, hblocked⟩ hfree
  simp only [imp_false, not_or] at hnot
  obtain ⟨herrors, hfailed, hskipped⟩ := hnot
  refine ⟨herrors, fun hmissing => ?_⟩
  have hverdict := installMissing_tells shell s harranged w horder
  have hinstalled : d ∈ ((b.installMissing shell s).run w).1.installed := by
    -- a missing target that is not skipped is attempted, and this one has not failed
    by_contra hnot
    have hblockers := not_not.mp (fun hne => hskipped ((judged_skipped_iff hverdict).mpr
      ⟨hmissing, hne⟩))
    exact ((judged_attempted_iff hverdict).mpr ⟨hmissing, hblockers⟩).elim hnot hfailed
  exact ⟨horder, hinstalled, hagrees.installed.mp hinstalled⟩

/-- A missing target is attempted if, when it comes up, each of its dependencies is known to be
installed or was not missing, and none has an error. -/
theorem attempted_of_dependencies (harranged : b.Arranged b.order) (ht : t ∈ b.order)
    (hmissing : t ∈ s.missing) (hready : ∀ d ∈ b.dependenciesOf t, d ∉ s.errors ∧
      (d ∈ s.missing → d ∈ ((b.installBefore shell s t).run w).1.installed)) :
    b.Attempted shell s w t := by
  refine (judged_attempted_iff (installMissing_tells shell s harranged w ht)).mpr ⟨hmissing, ?_⟩
  by_contra hblocked
  obtain ⟨d, hd, hreason⟩ := (blockers_ne_nil_iff _ t).mp hblocked
  obtain ⟨horder, hagrees⟩ := installBefore_agrees shell s harranged w ht hd
  have hverdict := installMissing_tells shell s harranged w horder
  rcases hreason with herror | hfailed | hskipped
  · exact (hready d hd).1 herror
  · have hinstalled := (hready d hd).2 ((judged_failed_iff hverdict).mp hfailed).1
    exact (hverdict.exclusive.1 (hagrees.installed.mpr hinstalled)).1 hfailed
  · have hinstalled := (hready d hd).2 ((judged_skipped_iff hverdict).mp hskipped).1
    exact (hverdict.exclusive.1 (hagrees.installed.mpr hinstalled)).2 hskipped

/-- **Install passes are safe.** At each point of a pass, what has been run is what the attempts
so far have run, one after another in the order of installation; no target is attempted twice.
A target that is attempted is missing, and what is run are its commands from the first one on.
None of its dependencies has an error, and those that are missing have been reported as
installed when the target comes up: all of their commands have been run and have exited with
0. Where a missing target comes up like this, it is attempted. -/
theorem installMissing_safe (h : (Loaded.ofConfig c).result = .ok b) (shell : Shell σ)
    (s : StatusReport) (w : World σ) :
    let runs := fun t => (b.attemptIn shell s w t).2
    let before := fun t => ((b.installBefore shell s t).run w).1.installed
    ((b.installMissing shell s).run w).2.executions =
      w.executions ++ (b.order.filter (b.Attempted shell s w)).flatMap runs ∧
    (∀ first rest, b.order = first ++ rest →
      ((b.installFrom shell s {} first).run w).2.executions =
        w.executions ++ (first.filter (b.Attempted shell s w)).flatMap runs) ∧
    (b.order.filter (b.Attempted shell s w)).Nodup ∧
    (∀ t, b.Attempted shell s w t →
      t ∈ s.missing ∧
      (∀ e ∈ runs t, ∃ commands, b.installCommands t = .ok commands ∧
        (runs t).map Execution.command <+: commands) ∧
      ∀ d, c.DependsOn t d →
        d ∉ s.errors ∧
        (d ∈ s.missing →
          d ∈ before t ∧
          b.installCommands d = .ok ((runs d).map Execution.command) ∧
          ∀ e ∈ runs d, e.Succeeded)) ∧
    ∀ t ∈ c.targets.keys, t ∈ s.missing →
      (∀ d, c.DependsOn t d → d ∉ s.errors ∧ (d ∈ s.missing → d ∈ before t)) →
      b.Attempted shell s w t := by
  intro runs before
  have harranged := order_arranged h
  refine ⟨installFrom_executions shell s harranged w b.order (List.append_nil _).symm,
    fun first rest => installFrom_executions shell s harranged w first,
    harranged.nodup.filter _,
    fun t ht => ⟨(ht.free harranged).1, fun e he => ?_, fun d hd => ?_⟩,
    fun t ht hmissing hready => ?_⟩
  · obtain ⟨st', hattempts, -⟩ := b.attempt_run shell t ((b.installBefore shell s t).run w).2
    exact hattempts.commands_isPrefix he
  · obtain ⟨herrors, hinstalled⟩ :=
      ht.dependency harranged ((mem_dependenciesOf_of_accepted h t d).mpr hd)
    refine ⟨herrors, fun hmissing => ?_⟩
    obtain ⟨horder, hfinal, hthen⟩ := hinstalled hmissing
    exact ⟨hthen, installed_succeeded harranged horder hfinal⟩
  · refine attempted_of_dependencies harranged ((mem_order_iff h t).mpr ht) hmissing ?_
    exact fun d hd => hready d ((mem_dependenciesOf_of_accepted h t d).mp hd)

/-- With a shell that refuses one command, what is installed before the library. -/
theorem installMissing_safe_layered :
    (Loaded.ofConfig .layered).result = .ok (ofConfig .layered) ∧
    "base" ∈ (((ofConfig .layered).installBefore (.stumbling "make lib")
      { missing := ["app", "lib", "base"] } "lib").run ⟨0, []⟩).1.installed := by
  obtain ⟨-, -, -, hattempted, -⟩ := installMissing_safe layered_accepted (.stumbling "make lib")
    { missing := ["app", "lib", "base"] } ⟨0, []⟩
  have hlib := hattempted "lib" (by decide)
  exact ⟨layered_accepted, ((hlib.2.2 "base" (by decide)).2 (by decide)).1⟩

end Provision
