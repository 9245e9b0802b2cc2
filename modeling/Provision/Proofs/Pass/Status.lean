import Provision.Proofs.InstallOrder
import Provision.Proofs.Pass.Execution
import Provision.Proofs.Registry

/-!
# Status passes

A step of a pass checks one target: it runs the command of the check, if there is one, and adds
the outcome to the report. A target comes up once, so that the whole report follows from the
outcome of each target's check in the state of the world in which the target comes up.

> `checkTarget_run`: a check runs its command and nothing else;
> `statusFrom_tells`: what a pass tells and what it has run, as far as it has come;
> `status_partitions`: each declared target is in one list of the report, and why.
-/

namespace Provision

/-! ## Outcomes of checks -/

/-- What a command that is not successful makes of a target: exit 1 is all that is not an
error. -/
theorem status_of_classify {result : RunResult} {o : Outcome} (h : classify result = some o) :
    (o.status = .notInstalled ∧ ∃ f, result = .ok f ∧ f.exitCode = 1) ∨
    (o.status = .error ∧ ∀ f, result = .ok f → f.exitCode ≠ 0 ∧ f.exitCode ≠ 1) := by
  cases classify_eq_some_iff.mp h with
  | notInstalled one => exact Or.inl ⟨rfl, _, rfl, one⟩
  | error notZero notOne =>
    refine Or.inr ⟨rfl, fun f hf => ?_⟩
    obtain rfl := Except.ok.inj hf
    exact ⟨notZero, notOne⟩
  | unstarted e => exact Or.inr ⟨rfl, fun f hf => nomatch hf⟩

namespace Blueprint

variable {σ : Type} (b : Blueprint) (shell : Shell σ)

/-- The check of a target in a state of the world: its outcome, and what it runs. -/
def check (target : String) (st : σ) : Option Outcome × List Execution :=
  match b.checkCommand target with
  | .ok command =>
    let result := (shell b.shell command st).1
    (classify result, [⟨b.shell, command, result⟩])
  | .error e => (some e.outcome, [])

/-- Checking a target leaves the events of its check and nothing else. -/
theorem checkTarget_run (target : String) (w : World σ) : ∃ st',
    (b.checkTarget shell target).run w = ((b.check shell target w.state).1,
      ⟨st', w.events ++ (b.check shell target w.state).2.map Execution.event⟩) := by
  rw [checkTarget, check]
  cases b.checkCommand target with
  | ok command =>
    refine ⟨(shell b.shell command w.state).2, ?_⟩
    simp only [Blueprint.run, Run.run_map, Run.run_exec]
    rfl
  | error e =>
    refine ⟨w.state, ?_⟩
    rw [Run.run_pure, List.map_nil, List.append_nil]

end Blueprint

/-! ## Reports -/

namespace StatusReport

/-- Whether a report tells the outcomes of some targets in order: those without an outcome as
installed, those with an error as errors, and all others as missing. -/
structure Tells (r : StatusReport) (outcome : String → Option Outcome) (targets : List String) :
    Prop where
  installed : r.installed = targets.filter fun t => outcome t = none
  missing : r.missing = targets.filter fun t => (outcome t).any fun o => o.status ≠ .error
  errors : r.errors = targets.filter fun t => (outcome t).any fun o => o.status = .error
  outcomes : r.outcomes.entries = targets.filterMap fun t => (outcome t).map fun o => (t, o)

variable {r : StatusReport} {outcome : String → Option Outcome} {targets : List String}
  {t : String}

/-- Before the first target, the report says nothing. -/
theorem tells_empty (outcome : String → Option Outcome) :
    ({} : StatusReport).Tells outcome [] := ⟨rfl, rfl, rfl, rfl⟩

/-- Outcomes of other targets only are kept. -/
theorem Tells.notMem_outcomes (h : r.Tells outcome targets) (ht : t ∉ targets) :
    t ∉ r.outcomes.keys := by
  rw [Registry.keys, h.outcomes, List.mem_map]
  rintro ⟨e, he, rfl⟩
  obtain ⟨t', ht', hmap⟩ := List.mem_filterMap.mp he
  obtain ⟨o, -, rfl⟩ := Option.map_eq_some_iff.mp hmap
  exact ht ht'

/-- A step tells the outcome of one more target. -/
theorem Tells.addStatus (h : r.Tells outcome targets) (ht : t ∉ targets) :
    (Blueprint.addStatus r t (outcome t)).Tells outcome (targets ++ [t]) := by
  have hnew := h.notMem_outcomes ht
  cases houtcome : outcome t with
  | none =>
    constructor <;>
      simp [Blueprint.addStatus, h.installed, h.missing, h.errors, h.outcomes, houtcome]
  | some o =>
    by_cases hstatus : o.status = .error
    · constructor <;>
        simp [Blueprint.addStatus, h.installed, h.missing, h.errors, h.outcomes, houtcome, hstatus,
          Registry.entries_insert_of_notMem hnew]
    · constructor <;>
        simp [Blueprint.addStatus, h.installed, h.missing, h.errors, h.outcomes, houtcome, hstatus,
          Registry.entries_insert_of_notMem hnew]

/-! ### What a told outcome comes to -/

/-- A target is listed as installed when its check has no outcome. -/
theorem Tells.mem_installed_iff (h : r.Tells outcome targets) :
    t ∈ r.installed ↔ t ∈ targets ∧ outcome t = none := by
  simp [h.installed]

/-- A target is listed as missing when its check says so. -/
theorem Tells.mem_missing_iff (h : r.Tells outcome targets) :
    t ∈ r.missing ↔ t ∈ targets ∧ ∃ o, outcome t = some o ∧ o.status ≠ .error := by
  simp [h.missing, Option.any_eq_true]

/-- A target is listed among the errors when it cannot be checked. -/
theorem Tells.mem_errors_iff (h : r.Tells outcome targets) :
    t ∈ r.errors ↔ t ∈ targets ∧ ∃ o, outcome t = some o ∧ o.status = .error := by
  simp [h.errors, Option.any_eq_true]

/-- Each target is told of in one list. -/
theorem Tells.perm (h : r.Tells outcome targets) :
    (r.installed ++ r.missing ++ r.errors).Perm targets := by
  rw [h.installed, h.missing, h.errors]
  clear h
  induction targets with
  | nil => exact .refl []
  | cons t targets ih =>
    cases houtcome : outcome t with
    | none => simpa [List.filter_cons, houtcome] using ih
    | some o =>
      by_cases hstatus : o.status = .error
      · simpa [List.filter_cons, houtcome, hstatus] using
          List.perm_middle.trans (List.Perm.cons t ih)
      · simp only [List.filter_cons, houtcome, hstatus, Option.any_some, ne_eq, not_false_eq_true,
          decide_true, decide_false, if_true, reduceCtorEq, Bool.false_eq_true, if_false,
          List.append_assoc, List.cons_append]
        rw [List.append_assoc] at ih
        exact List.perm_middle.trans (List.Perm.cons t ih)

/-- All is complete exactly if nothing has an outcome. -/
theorem Tells.isComplete_iff (h : r.Tells outcome targets) :
    r.isComplete = true ↔ ∀ t ∈ targets, outcome t = none := by
  rw [isComplete, Bool.and_eq_true, List.isEmpty_iff, List.isEmpty_iff]
  constructor
  · rintro ⟨hmissing, herrors⟩ t ht
    have hmem := h.perm.mem_iff.mpr ht
    rw [hmissing, herrors, List.append_nil, List.append_nil] at hmem
    exact (h.mem_installed_iff.mp hmem).2
  · intro hall
    constructor
    · refine List.eq_nil_iff_forall_not_mem.mpr fun t ht => ?_
      obtain ⟨ht, o, ho, -⟩ := h.mem_missing_iff.mp ht
      simp [hall t ht] at ho
    · refine List.eq_nil_iff_forall_not_mem.mpr fun t ht => ?_
      obtain ⟨ht, o, ho, -⟩ := h.mem_errors_iff.mp ht
      simp [hall t ht] at ho

/-- The outcomes are those of all targets that are not installed, in order. -/
theorem Tells.keys_outcomes (h : r.Tells outcome targets) :
    r.outcomes.keys = targets.filter fun t => t ∈ r.missing ∨ t ∈ r.errors := by
  have hkeys : r.outcomes.keys = targets.filter fun t => (outcome t).isSome := by
    rw [Registry.keys, h.outcomes, List.map_filterMap]
    clear h
    induction targets with
    | nil => rfl
    | cons t targets ih => cases houtcome : outcome t <;> simp_all
  rw [hkeys]
  refine List.filter_congr fun t ht => ?_
  rw [Bool.eq_iff_iff, decide_eq_true_iff, h.mem_missing_iff, h.mem_errors_iff]
  cases outcome t with
  | none => simp
  | some o => simp [ht, em']

/-- The outcome of a target is kept under its name. -/
theorem Tells.get?_outcomes (h : r.Tells outcome targets) (ht : t ∈ targets) :
    r.outcomes.get? t = outcome t := by
  refine Option.ext fun o => ?_
  rw [Registry.get?_eq_some_iff, h.outcomes, List.mem_filterMap]
  constructor
  · rintro ⟨t', -, hmap⟩
    obtain ⟨o', ho', heq⟩ := Option.map_eq_some_iff.mp hmap
    obtain ⟨rfl, rfl⟩ := Prod.mk.inj heq
    exact ho'
  · exact fun ho => ⟨t, ht, by rw [ho]; rfl⟩

end StatusReport

/-! ## Passes over some targets -/

namespace Blueprint

variable {σ : Type} (b : Blueprint) (shell : Shell σ)

/-- A pass over some targets that goes on with a report. -/
def statusFrom (r : StatusReport) (targets : List String) : Run σ StatusReport :=
  targets.foldlM (fun r target => addStatus r target <$> b.checkTarget shell target) r

/-- The pass over all targets, as far as it has come when a target comes up. -/
def statusBefore (target : String) : Run σ StatusReport :=
  b.statusFrom shell {} (b.order.takeWhile (· != target))

/-- The check of a target in the state of the world in which it comes up. -/
def checkIn (w : World σ) (target : String) : Option Outcome × List Execution :=
  b.check shell target ((b.statusBefore shell target).run w).2.state

variable {b shell}

/-- Checking two lists is checking the first and then the second. -/
theorem statusFrom_append (r : StatusReport) (before after : List String) (w : World σ) :
    (b.statusFrom shell r (before ++ after)).run w =
      (b.statusFrom shell ((b.statusFrom shell r before).run w).1 after).run
        ((b.statusFrom shell r before).run w).2 := by
  rw [statusFrom, List.foldlM_append]
  rfl

variable (b shell)

/-- A step adds one outcome to the report, and runs what the check runs. -/
theorem statusFrom_singleton (r : StatusReport) (t : String) (w : World σ) :
    ((b.statusFrom shell r [t]).run w).1 = addStatus r t (b.check shell t w.state).1 ∧
    ((b.statusFrom shell r [t]).run w).2.executions =
      w.executions ++ (b.check shell t w.state).2 := by
  obtain ⟨st', hrun⟩ := b.checkTarget_run shell t w
  have hstep : (b.statusFrom shell r [t]).run w =
      ((addStatus r t <$> b.checkTarget shell t) >>= pure : Run σ StatusReport).run w := rfl
  rw [hstep, Run.run_bind, Run.run_map, hrun]
  refine ⟨rfl, ?_⟩
  simp only [Run.run_pure, World.executions, List.filterMap_append, filterMap_execution?]

/-- What the report holds before a target is the report of the targets before it. -/
theorem statusBefore_eq (hnodup : b.order.Nodup) {before after : List String} {t : String}
    (hsplit : b.order = before ++ t :: after) :
    b.statusBefore shell t = b.statusFrom shell {} before := by
  rw [hsplit] at hnodup
  obtain ⟨-, -, hdisjoint⟩ := List.nodup_append.mp hnodup
  have ht : t ∉ before := fun ht => hdisjoint t ht t (List.mem_cons_self ..) rfl
  rw [statusBefore, hsplit, takeWhile_ne_append ht]

/-- **At each point of a pass, the report tells the outcomes of the checks so far, and what has
been run is what these checks have run.** -/
theorem statusFrom_tells (hnodup : b.order.Nodup) (w : World σ) (before : List String) :
    ∀ {after : List String}, b.order = before ++ after →
      ((b.statusFrom shell {} before).run w).1.Tells (fun t => (b.checkIn shell w t).1) before ∧
      ((b.statusFrom shell {} before).run w).2.executions =
        w.executions ++ before.flatMap fun t => (b.checkIn shell w t).2 := by
  induction before using List.reverseRecOn with
  | nil => intro after _; exact ⟨StatusReport.tells_empty _, (List.append_nil _).symm⟩
  | append_singleton before t ih =>
    intro after hsplit
    rw [List.append_assoc, List.singleton_append] at hsplit
    obtain ⟨htells, hruns⟩ := ih hsplit
    obtain ⟨hreport, hmore⟩ := statusFrom_singleton b shell
      ((b.statusFrom shell {} before).run w).1 t ((b.statusFrom shell {} before).run w).2
    -- the target has not come up before, and comes up in this state of the world
    have ht : t ∉ before := by
      rw [hsplit] at hnodup
      exact fun ht => (List.nodup_append.mp hnodup).2.2 t ht t (List.mem_cons_self ..) rfl
    have hcheck : b.checkIn shell w t =
        b.check shell t ((b.statusFrom shell {} before).run w).2.state := by
      rw [checkIn, statusBefore_eq b shell hnodup hsplit]
    rw [statusFrom_append, hreport, hmore, hruns, ← hcheck]
    exact ⟨htells.addStatus ht, by simp⟩

end Blueprint

/-! ## The pass over all targets -/

/-- Whether a command has exited with a code. -/
def Execution.ExitedWith (e : Execution) (code : Int) : Prop :=
  ∃ f, e.result = .ok f ∧ f.exitCode = code

/-- What a code says of a target: 0 that it is installed, and 1 that it is missing. All else is
an error, and so is a command that is not known. -/
inductive Told (runs : List Execution) : Option Outcome → Prop
  | installed (success : ∃ e ∈ runs, e.ExitedWith 0) (only : ¬ ∃ e ∈ runs, e.ExitedWith 1) :
      Told runs none
  | missing {o : Outcome} (status : o.status = .notInstalled) (one : ∃ e ∈ runs, e.ExitedWith 1)
      (only : ¬ ∃ e ∈ runs, e.ExitedWith 0) : Told runs (some o)
  | error {o : Outcome} (status : o.status = .error) (notZero : ¬ ∃ e ∈ runs, e.ExitedWith 0)
      (notOne : ¬ ∃ e ∈ runs, e.ExitedWith 1) : Told runs (some o)

/-- A check tells its outcome by the command that it ran. -/
theorem Blueprint.check_told {σ : Type} (b : Blueprint) (shell : Shell σ) (t : String) (st : σ) :
    Told (b.check shell t st).2 (b.check shell t st).1 := by
  rw [check]
  cases b.checkCommand t with
  | error e => exact .error rfl (by simp) (by simp)
  | ok command =>
    show Told [⟨b.shell, command, (shell b.shell command st).1⟩]
      (classify (shell b.shell command st).1)
    generalize (shell b.shell command st).1 = result
    -- there is one execution, so that its code is the code
    have hexits : ∀ code, (∃ e ∈ [(⟨b.shell, command, result⟩ : Execution)], e.ExitedWith code) ↔
        ∃ f, result = .ok f ∧ f.exitCode = code := by
      intro code
      simp [Execution.ExitedWith]
    cases hclass : classify result with
    | none =>
      obtain ⟨f, rfl, hzero⟩ := (classify_eq_none_iff ⟨b.shell, command, result⟩).mp hclass
      refine .installed ((hexits 0).mpr ⟨f, rfl, hzero⟩) fun hone => ?_
      obtain ⟨f', hf, hone⟩ := (hexits 1).mp hone
      obtain rfl := Except.ok.inj hf
      omega
    | some o =>
      rcases status_of_classify hclass with ⟨hstatus, f, rfl, hone⟩ | ⟨hstatus, hother⟩
      · refine .missing hstatus ((hexits 1).mpr ⟨f, rfl, hone⟩) fun hzero => ?_
        obtain ⟨f', hf, hzero⟩ := (hexits 0).mp hzero
        obtain rfl := Except.ok.inj hf
        omega
      · refine .error hstatus (fun hzero => ?_) fun hone => ?_
        · obtain ⟨f, hf, hzero⟩ := (hexits 0).mp hzero
          exact (hother f hf).1 hzero
        · obtain ⟨f, hf, hone⟩ := (hexits 1).mp hone
          exact (hother f hf).2 hone

section Status

variable {σ : Type} {c : Config} {b : Blueprint}

/-- The report of a pass over all targets. -/
theorem status_tells (hnodup : b.order.Nodup) (shell : Shell σ) (w : World σ) :
    ((b.status shell).run w).1.Tells (fun t => (b.checkIn shell w t).1) b.order :=
  (b.statusFrom_tells shell hnodup w b.order (List.append_nil _).symm).1

/-- **Status passes partition the declared targets.** A pass runs the command of each check that
is known, in the order of installation, when its target comes up, and nothing else. The lists of
the report are in this order and share nothing; together they are the declared targets. A target
is installed if its check has exited with 0, missing if it has exited with 1, and an error
otherwise. There are outcomes for what is not installed only, in order, and of the kind that the
lists tell. All is complete exactly if every check has exited with 0. -/
theorem status_partitions (h : (Loaded.ofConfig c).result = .ok b) (shell : Shell σ)
    (w : World σ) :
    let r := ((b.status shell).run w).1
    let runs := fun t => (b.checkIn shell w t).2
    let exits := fun t code => ∃ e ∈ runs t, e.ExitedWith code
    ((b.status shell).run w).2.executions = w.executions ++ b.order.flatMap runs ∧
    (∀ t command, b.checkCommand t = .ok command → runs t = [⟨b.shell, command,
      (shell b.shell command ((b.statusBefore shell t).run w).2.state).1⟩]) ∧
    (∀ t e, b.checkCommand t = .error e → runs t = []) ∧
    (r.installed.Sublist b.order ∧ r.missing.Sublist b.order ∧ r.errors.Sublist b.order) ∧
    (r.installed ++ r.missing ++ r.errors).Nodup ∧
    (∀ t, t ∈ r.installed ++ r.missing ++ r.errors ↔ t ∈ c.targets.keys) ∧
    (∀ t ∈ c.targets.keys, (t ∈ r.installed ↔ exits t 0) ∧ (t ∈ r.missing ↔ exits t 1) ∧
      (t ∈ r.errors ↔ ¬ exits t 0 ∧ ¬ exits t 1)) ∧
    r.outcomes.keys = b.order.filter (fun t => t ∈ r.missing ∨ t ∈ r.errors) ∧
    (∀ t ∈ r.missing, ∃ o, r.outcomes.get? t = some o ∧ o.status = .notInstalled) ∧
    (∀ t ∈ r.errors, ∃ o, r.outcomes.get? t = some o ∧ o.status = .error) ∧
    (r.isComplete = true ↔ ∀ t ∈ c.targets.keys, exits t 0) := by
  intro r runs exits
  have hnodup := order_nodup h
  have htells : r.Tells (fun t => (b.checkIn shell w t).1) b.order := status_tells hnodup shell w
  have htold : ∀ t, Told (runs t) (b.checkIn shell w t).1 := fun t => b.check_told shell t _
  have hclass : ∀ t ∈ c.targets.keys, (t ∈ r.installed ↔ exits t 0) ∧
      (t ∈ r.missing ↔ exits t 1) ∧ (t ∈ r.errors ↔ ¬ exits t 0 ∧ ¬ exits t 1) := by
    intro t ht
    have ht := (mem_order_iff h t).mpr ht
    rw [htells.mem_installed_iff, htells.mem_missing_iff, htells.mem_errors_iff]
    have htold := htold t
    generalize (b.checkIn shell w t).1 = outcome at htold ⊢
    cases htold with
    | installed success only => simp [exits, ht, success, only]
    | missing status one only => simp [exits, ht, status, one, only]
    | error status notZero notOne => simp [exits, ht, status, notZero, notOne]
  refine ⟨(b.statusFrom_tells shell hnodup w b.order (List.append_nil _).symm).2,
    fun t command hcommand => ?_, fun t e hunknown => ?_, ?_, htells.perm.nodup_iff.mpr hnodup,
    fun t => htells.perm.mem_iff.trans (mem_order_iff h t), hclass, htells.keys_outcomes,
    fun t ht => ?_, fun t ht => ?_, ?_⟩
  · show (b.check shell t _).2 = _
    rw [Blueprint.check, hcommand]
  · show (b.check shell t _).2 = _
    rw [Blueprint.check, hunknown]
  · rw [htells.installed, htells.missing, htells.errors]
    exact ⟨List.filter_sublist, List.filter_sublist, List.filter_sublist⟩
  · obtain ⟨horder, o, ho, hstatus⟩ := htells.mem_missing_iff.mp ht
    refine ⟨o, (htells.get?_outcomes horder).trans ho, ?_⟩
    have htold := htold t
    rw [ho] at htold
    cases htold with
    | missing status => exact status
    | error status => exact absurd status hstatus
  · obtain ⟨horder, o, ho, hstatus⟩ := htells.mem_errors_iff.mp ht
    exact ⟨o, (htells.get?_outcomes horder).trans ho, hstatus⟩
  · rw [htells.isComplete_iff]
    refine forall_congr' fun t => ?_
    rw [mem_order_iff h]
    refine imp_congr_right fun ht => ?_
    rw [← (hclass t ht).1, htells.mem_installed_iff, mem_order_iff h, and_iff_right ht]

/-- Two checks exit with 0, and one with 2, so that there is one outcome. -/
theorem status_partitions_layered :
    let r := (((Blueprint.ofConfig .layered).status (.stumbling "make lib")).run ⟨0, []⟩).1
    (Loaded.ofConfig .layered).result = .ok (.ofConfig .layered) ∧
    r.installed = ["base", "app"] ∧ r.missing = [] ∧ r.errors = ["lib"] ∧
    (∃ o, r.outcomes.get? "lib" = some o ∧ o.status = .error) ∧
    (r.installed ++ r.missing ++ r.errors).Nodup ∧ r.isComplete = false := by
  intro r
  obtain ⟨-, -, -, -, hnodup, -, hclass, -, -, herrors, hcomplete⟩ :=
    status_partitions layered_accepted (.stumbling "make lib") ⟨0, []⟩
  have hlib : "lib" ∈ r.errors := by decide
  refine ⟨layered_accepted, by decide, by decide, by decide, herrors "lib" hlib, hnodup, ?_⟩
  -- the check that has not exited with 0 is one of a declared target
  rw [← Bool.not_eq_true]
  intro hall
  exact ((hclass "lib" (by decide)).2.2.mp hlib).1 (hcomplete.mp hall "lib" (by decide))

end Status

end Provision
