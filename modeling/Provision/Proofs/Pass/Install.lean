import Provision.Proofs.InstallOrder
import Provision.Proofs.Pass.Execution
import Provision.Proofs.Pass.Verdict

/-!
# Install passes

A step of a pass comes to a verdict on one target, adds it to the report and runs nothing but
what an attempt at the target runs. Since a target comes up once, and after all that it depends
on, its verdict is told to the end, and what it was based on does not change either: the report
explains itself.

> `installStep_run`: a step adds one verdict, and runs what the attempt runs;
> `installFrom_tells`: the report tells each verdict as it follows from the report itself;
> `installFrom_executions`: what has been run is what the attempts so far have run.
-/

namespace Provision.Blueprint

variable {σ : Type} (b : Blueprint) (shell : Shell σ) (s : StatusReport)

/-! ## Steps -/

/-- What a pass with a report comes to for a target, in a state of the world. -/
def judge (r : InstallReport) (target : String) (st : σ) : Verdict :=
  if target ∈ s.missing then
    if b.blockers s r target = [] then .attempted (b.attempt shell target st).1
    else .skipped (b.blockers s r target)
  else .unneeded

variable {b shell s} {r : InstallReport} {t : String} {w : World σ}

/-- A target that is not missing is passed over. -/
theorem installStep_unneeded (h : t ∉ s.missing) :
    (b.installStep shell s r t).run w = (r, w) := by
  have hcontains : s.missing.contains t = false := by simpa using h
  rw [installStep, hcontains]
  rfl

/-- A target with a blocker is skipped: nothing is run, and the blockers are reported. -/
theorem installStep_skipped (h : t ∈ s.missing) (hblocked : b.blockers s r t ≠ []) :
    (b.installStep shell s r t).run w = (r.add t (.skipped (b.blockers s r t)),
      { w with events := w.events ++ [.skipped t (b.blockers s r t)] }) := by
  have hcontains : s.missing.contains t = true := by simpa using h
  have hempty : (b.blockers s r t).isEmpty = false := by simpa using hblocked
  simp only [installStep, hcontains, hempty]
  rfl

/-- Any other missing target is attempted, and the attempt is announced and reported. -/
theorem installStep_attempted (h : t ∈ s.missing) (hfree : b.blockers s r t = []) :
    ∃ st' last, b.Attempts shell t w.state (b.attempt shell t w.state).2
        (b.attempt shell t w.state).1 st' ∧ last.execution? = none ∧
      (b.installStep shell s r t).run w =
        (r.add t (.attempted (b.attempt shell t w.state).1),
          ⟨st', w.events ++ [.installing t] ++
            (b.attempt shell t w.state).2.map Execution.event ++ [last]⟩) := by
  have hcontains : s.missing.contains t = true := by simpa using h
  obtain ⟨st', hattempts, hrun⟩ :=
    b.attempt_run shell t { w with events := w.events ++ [.installing t] }
  simp only [installStep, hcontains, hfree, Bool.not_true, Bool.false_eq_true, if_false,
    List.isEmpty_nil]
  rw [Run.run_bind, Run.run_note, Run.run_bind, hrun]
  change b.Attempts shell t w.state _ (b.attempt shell t w.state).1 st' at hattempts
  generalize (b.attempt shell t w.state).1 = outcome at hattempts ⊢
  cases outcome with
  | none => exact ⟨st', .installed t, hattempts, rfl, rfl⟩
  | some o => exact ⟨st', .failed t o.detail, hattempts, rfl, rfl⟩

/-- **A step adds one verdict to the report.** -/
theorem installStep_run (r : InstallReport) (t : String) (w : World σ) :
    ((b.installStep shell s r t).run w).1 = r.add t (b.judge shell s r t w.state) ∧
    ((b.installStep shell s r t).run w).2.executions = w.executions ++
      if t ∈ s.missing ∧ b.blockers s r t = [] then (b.attempt shell t w.state).2 else [] := by
  rw [judge]
  by_cases hmissing : t ∈ s.missing
  · by_cases hfree : b.blockers s r t = []
    · obtain ⟨st', last, -, hlast, hrun⟩ := installStep_attempted (w := w) hmissing hfree
      -- the notes before and after the attempt run nothing
      have hfirst : [Event.installing t].filterMap Event.execution? = [] := rfl
      have hend : [last].filterMap Event.execution? = [] := by simp [hlast]
      rw [hrun]
      simp only [hmissing, hfree, and_self, if_true, World.executions, List.filterMap_append,
        hfirst, filterMap_execution?, hend, List.append_nil]
    · rw [installStep_skipped hmissing hfree]
      simp [hmissing, hfree, World.executions, Event.execution?]
  · rw [installStep_unneeded hmissing]
    simp [hmissing, InstallReport.add]

/-! ## What blocks a target -/

variable {r' : InstallReport}

/-- A dependency blocks when its check failed, when it failed or when it was skipped. -/
theorem isBlocked_iff (r : InstallReport) (d : String) :
    isBlocked s r d = true ↔ d ∈ s.errors ∨ d ∈ r.failed ∨ d ∈ r.skipped := by
  simp [isBlocked, or_assoc]

/-- A target is blocked by one of its direct dependencies. -/
theorem blockers_ne_nil_iff (r : InstallReport) (t : String) : b.blockers s r t ≠ [] ↔
    ∃ d ∈ b.dependenciesOf t, d ∈ s.errors ∨ d ∈ r.failed ∨ d ∈ r.skipped := by
  constructor
  · intro hne
    obtain ⟨d, hd⟩ := List.exists_mem_of_ne_nil _ hne
    obtain ⟨hd, hblocked⟩ := List.mem_filter.mp hd
    exact ⟨d, hd, (isBlocked_iff r d).mp hblocked⟩
  · rintro ⟨d, hd, hblocked⟩
    exact List.ne_nil_of_mem (List.mem_filter.mpr ⟨hd, (isBlocked_iff r d).mpr hblocked⟩)

/-- Whether a target blocks others is a matter of what is told of it. -/
theorem isBlocked_congr {d : String} (h : r.Agrees r' d) : isBlocked s r' d = isBlocked s r d := by
  rw [Bool.eq_iff_iff, isBlocked_iff, isBlocked_iff, h.failed, h.skipped]

/-- What blocks a target depends on its dependencies alone. -/
theorem blockers_congr (h : ∀ d ∈ b.dependenciesOf t, r.Agrees r' d) :
    b.blockers s r' t = b.blockers s r t :=
  List.filter_congr fun d hd => isBlocked_congr (h d hd)

/-- The verdict on a target depends on its dependencies and on the state alone. -/
theorem judge_congr (st : σ) (h : ∀ d ∈ b.dependenciesOf t, r.Agrees r' d) :
    b.judge shell s r' t st = b.judge shell s r t st := by
  rw [judge, judge, blockers_congr h]

/-! ## Passes over some targets -/

variable (b shell s)

/-- A pass over some targets that goes on with a report. -/
def installFrom (r : InstallReport) (targets : List String) : Run σ InstallReport :=
  targets.foldlM (b.installStep shell s) r

variable {b shell s}

theorem installFrom_cons (r : InstallReport) (t : String) (targets : List String) (w : World σ) :
    (b.installFrom shell s r (t :: targets)).run w =
      (b.installFrom shell s ((b.installStep shell s r t).run w).1 targets).run
        ((b.installStep shell s r t).run w).2 := rfl

/-- A pass over two lists is a pass over the first and then one over the second. -/
theorem installFrom_append (r : InstallReport) (before after : List String) (w : World σ) :
    (b.installFrom shell s r (before ++ after)).run w =
      (b.installFrom shell s ((b.installFrom shell s r before).run w).1 after).run
        ((b.installFrom shell s r before).run w).2 := by
  rw [installFrom, List.foldlM_append]
  rfl

variable (b shell s)

/-- A pass tells nothing new of targets that it does not come to. -/
theorem installFrom_agrees {d : String} : ∀ (targets : List String) (r : InstallReport)
    (w : World σ), d ∉ targets → r.Agrees ((b.installFrom shell s r targets).run w).1 d := by
  intro targets
  induction targets with
  | nil => intro r w _; exact .refl r d
  | cons t targets ih =>
    intro r w hd
    obtain ⟨hdt, hd⟩ := not_or.mp (mt List.mem_cons.mpr hd)
    have hstep : r.Agrees ((b.installStep shell s r t).run w).1 d := by
      rw [(installStep_run r t w).1]
      exact InstallReport.add_agrees hdt r _
    rw [installFrom_cons]
    exact hstep.trans (ih _ _ hd)

/-- The lists of a report have the order of the targets. -/
theorem installFrom_inOrder : ∀ (targets : List String) {done : List String} {r : InstallReport}
    (w : World σ), r.InOrder done →
    ((b.installFrom shell s r targets).run w).1.InOrder (done ++ targets) := by
  intro targets
  induction targets with
  | nil => intro done r w h; rwa [List.append_nil]
  | cons t targets ih =>
    intro done r w h
    have hstep : ((b.installStep shell s r t).run w).1.InOrder (done ++ [t]) := by
      rw [(installStep_run r t w).1]
      exact h.add t _
    have hrest := ih ((b.installStep shell s r t).run w).2 hstep
    rwa [List.append_assoc, List.singleton_append] at hrest

/-! ## Verdicts of a pass -/

variable {b}

/-- **The verdict of a target is told to the end.** What was known of its dependencies when it
came up is what the report tells of them at the end. -/
theorem installFrom_tells {targets before after : List String} {t : String}
    (h : b.Arranged targets) (hsplit : targets = before ++ t :: after) (w : World σ) :
    ((b.installFrom shell s {} targets).run w).1.Tells t
      (b.judge shell s ((b.installFrom shell s {} targets).run w).1 t
        ((b.installFrom shell s {} before).run w).2.state) := by
  obtain ⟨hdisjoint, hbefore, hafter⟩ := h.split hsplit
  have hfresh := (InstallReport.tells_empty t).of_agrees
    (installFrom_agrees b shell s before {} w hbefore)
  rw [hsplit, installFrom_append]
  rcases hrun : (b.installFrom shell s {} before).run w with ⟨r, w⟩
  rw [hrun] at hfresh
  have hdependencies : ∀ d ∈ b.dependenciesOf t,
      r.Agrees ((b.installFrom shell s r (t :: after)).run w).1 d := by
    intro d hd
    have hd := h.dependencies before t after hsplit d hd
    exact installFrom_agrees b shell s _ r w (hdisjoint d hd)
  rw [judge_congr _ hdependencies, installFrom_cons]
  -- the step tells the verdict, and what comes after it is about other targets
  refine InstallReport.Tells.of_agrees ?_ (installFrom_agrees b shell s after _ _ hafter)
  rw [(installStep_run r t w).1]
  exact InstallReport.add_tells hfresh _

/-! ## The pass over all targets -/

variable (b) in
/-- The pass over all targets, as far as it has come when a target comes up. -/
def installBefore (target : String) : Run σ InstallReport :=
  b.installFrom shell s {} (b.order.takeWhile (· != target))

variable (b) in
/-- The attempt at a target in the state of the world in which it comes up. -/
def attemptIn (w : World σ) (target : String) : Option Outcome × List Execution :=
  b.attempt shell target ((b.installBefore shell s target).run w).2.state

/-- What the report holds before a target is the report of the targets before it. -/
theorem installBefore_eq (h : b.Arranged b.order) {before after : List String} {t : String}
    (hsplit : b.order = before ++ t :: after) :
    b.installBefore shell s t = b.installFrom shell s {} before := by
  rw [installBefore, hsplit, takeWhile_ne_append (h.split hsplit).2.1]

/-- The verdict of each target of the order. -/
theorem installMissing_tells (h : b.Arranged b.order) (w : World σ) {t : String}
    (ht : t ∈ b.order) : ((b.installMissing shell s).run w).1.Tells t
      (b.judge shell s ((b.installMissing shell s).run w).1 t
        ((b.installBefore shell s t).run w).2.state) := by
  obtain ⟨before, after, hsplit⟩ := List.append_of_mem ht
  rw [installBefore_eq shell s h hsplit]
  exact installFrom_tells shell s h hsplit w

/-- When a target comes up, all is told of its dependencies. -/
theorem installBefore_agrees (h : b.Arranged b.order) (w : World σ) {t d : String}
    (ht : t ∈ b.order) (hd : d ∈ b.dependenciesOf t) :
    d ∈ b.order ∧ ((b.installBefore shell s t).run w).1.Agrees
      ((b.installMissing shell s).run w).1 d := by
  obtain ⟨before, after, hsplit⟩ := List.append_of_mem ht
  have hbefore := h.dependencies before t after hsplit d hd
  refine ⟨hsplit ▸ List.mem_append_left _ hbefore, ?_⟩
  show InstallReport.Agrees _ ((b.installFrom shell s {} b.order).run w).1 d
  rw [installBefore_eq shell s h hsplit, hsplit, installFrom_append]
  exact installFrom_agrees b shell s _ _ _ ((h.split hsplit).1 d hbefore)

variable (b) in
/-- Targets that are not in the order are not in the report. -/
theorem installMissing_tells_unneeded (w : World σ) {t : String} (ht : t ∉ b.order) :
    ((b.installMissing shell s).run w).1.Tells t .unneeded :=
  (InstallReport.tells_empty t).of_agrees (installFrom_agrees b shell s b.order {} w ht)

variable (b) in

/-- The lists of the report follow the order of the pass. -/
theorem installMissing_inOrder (w : World σ) :
    ((b.installMissing shell s).run w).1.InOrder b.order :=
  installFrom_inOrder b shell s b.order w InstallReport.inOrder_empty

/-! ## What a judged target is told of -/

section Judged

variable {shell s} {r r' : InstallReport} {st : σ} {t : String}

/-- A target is attempted when it is missing and free. -/
theorem judge_eq_attempted_iff {o : Option Outcome} :
    b.judge shell s r t st = .attempted o ↔
      t ∈ s.missing ∧ b.blockers s r t = [] ∧ (b.attempt shell t st).1 = o := by
  rw [judge]
  by_cases hmissing : t ∈ s.missing
  · by_cases hfree : b.blockers s r t = [] <;> simp [hmissing, hfree]
  · simp [hmissing]

/-- A target is skipped when it is missing and blocked. -/
theorem judge_eq_skipped_iff {blockers : List String} :
    b.judge shell s r t st = .skipped blockers ↔
      t ∈ s.missing ∧ b.blockers s r t ≠ [] ∧ b.blockers s r t = blockers := by
  rw [judge]
  by_cases hmissing : t ∈ s.missing
  · by_cases hfree : b.blockers s r t = [] <;> simp [hmissing, hfree]
  · simp [hmissing]

/-- A target is installed when its attempt succeeds. -/
theorem judged_installed_iff (h : r.Tells t (b.judge shell s r' t st)) :
    t ∈ r.installed ↔
      t ∈ s.missing ∧ b.blockers s r' t = [] ∧ (b.attempt shell t st).1 = none := by
  rw [h.installed, judge_eq_attempted_iff]

/-- A target fails when its attempt does. -/
theorem judged_failed_iff (h : r.Tells t (b.judge shell s r' t st)) :
    t ∈ r.failed ↔
      t ∈ s.missing ∧ b.blockers s r' t = [] ∧ ∃ o, (b.attempt shell t st).1 = some o := by
  simp only [h.failed, judge_eq_attempted_iff, exists_and_left]

/-- A target is skipped when it has a blocker. -/
theorem judged_skipped_iff (h : r.Tells t (b.judge shell s r' t st)) :
    t ∈ r.skipped ↔ t ∈ s.missing ∧ b.blockers s r' t ≠ [] := by
  simp only [h.skipped, judge_eq_skipped_iff, exists_and_left, exists_eq', and_true]

/-- A target is installed or fails when it is free. -/
theorem judged_attempted_iff (h : r.Tells t (b.judge shell s r' t st)) :
    t ∈ r.installed ∨ t ∈ r.failed ↔ t ∈ s.missing ∧ b.blockers s r' t = [] := by
  rw [judged_installed_iff h, judged_failed_iff h]
  cases (b.attempt shell t st).1 <;> simp

end Judged

/-! ## What a pass runs -/

variable (b) in
/-- Whether a target is attempted in a pass. -/
def Attempted (w : World σ) (t : String) : Prop :=
  t ∈ ((b.installMissing shell s).run w).1.installed ∨
    t ∈ ((b.installMissing shell s).run w).1.failed

instance (w : World σ) (t : String) : Decidable (b.Attempted shell s w t) :=
  inferInstanceAs (Decidable (_ ∨ _))

/-- **At each point of a pass, what has been run is what the attempts so far have run.** -/
theorem installFrom_executions (h : b.Arranged b.order) (w : World σ) (before : List String) :
    ∀ {after : List String}, b.order = before ++ after →
      ((b.installFrom shell s {} before).run w).2.executions = w.executions ++
        (before.filter (b.Attempted shell s w)).flatMap fun t => (b.attemptIn shell s w t).2 := by
  induction before using List.reverseRecOn with
  | nil => intro after _; exact (List.append_nil _).symm
  | append_singleton before t ih =>
    intro after hsplit
    rw [List.append_assoc, List.singleton_append] at hsplit
    have ht : t ∈ b.order := hsplit ▸ List.mem_append_right _ (List.mem_cons_self ..)
    have hbefore := installBefore_eq shell s h hsplit
    have hattempted : b.Attempted shell s w t ↔ t ∈ s.missing ∧
        b.blockers s ((b.installFrom shell s {} before).run w).1 t = [] := by
      rw [← blockers_congr fun d hd => hbefore ▸ (installBefore_agrees shell s h w ht hd).2]
      exact judged_attempted_iff (installMissing_tells shell s h w ht)
    have hrun : (b.attemptIn shell s w t).2 =
        (b.attempt shell t ((b.installFrom shell s {} before).run w).2.state).2 := by
      rw [attemptIn, hbefore]
    rw [installFrom_append, installFrom_cons]
    show World.executions ((b.installStep shell s _ t).run _).2 = _
    rw [(installStep_run _ t _).2, ih hsplit, List.filter_append, List.flatMap_append,
      List.append_assoc, ← hrun]
    by_cases hatt : b.Attempted shell s w t
    · rw [if_pos (hattempted.mp hatt)]
      simp [hatt]
    · rw [if_neg (mt hattempted.mpr hatt)]
      simp [hatt]

end Provision.Blueprint
