import Provision.Proofs.Pass.Classification
import Provision.Proofs.Pass.Safety
import Provision.Proofs.Pass.Status

/-!
# Checking, installing and checking again converge

If checks change nothing, and a target that has been installed passes its check from then on,
then what a pass reports as installed is found to be installed by the next check of all targets,
and is left alone by the next pass. The passes in between run commands for other targets, but
whatever they run, the state of the world only moves to one in which a passed check still passes.

> `installFrom_leads`: an install pass moves the world by commands that install targets;
> `installed_succeeds`: a target that a pass reports as installed passes its check at the end;
> `status_converges`: what has been installed stays, and a complete pass leaves nothing to do.
-/

namespace Provision

open Relation (ReflTransGen)

/-! ## Commands that change the world -/

namespace Shell

variable {σ : Type} (shell : Shell σ) (program : String)

/-- Whether a command exits with 0 in a state of the world. -/
def Succeeds (command : String) (st : σ) : Prop :=
  ∃ f, (shell program command st).1 = .ok f ∧ f.exitCode = 0

/-- Whether commands of some kind, one after another, lead from one state of the world to
another. -/
def Leads (kind : String → Prop) : σ → σ → Prop :=
  ReflTransGen fun st st' => ∃ command, kind command ∧ (shell program command st).2 = st'

variable {shell program}

/-- A command is classified as fine exactly when the shell succeeds with it. -/
theorem classify_eq_none_iff_succeeds {command : String} {st : σ} :
    classify (shell program command st).1 = none ↔ shell.Succeeds program command st :=
  classify_eq_none_iff ⟨program, command, (shell program command st).1⟩

/-- Commands that are run lead from the state before to the state after them. -/
theorem Runs.leads {kind : String → Prop} {commands : List String} {st st' : σ}
    {runs : List Execution} {o : Option Outcome}
    (h : shell.Runs program commands st runs o st') (hkind : ∀ command ∈ commands, kind command) :
    shell.Leads program kind st st' := by
  induction h with
  | done => exact .refl
  | stop ends => exact .single ⟨_, hkind _ (List.mem_cons_self ..), by rw [ends]⟩
  | next ends _ _ ih =>
    have hrest := ih fun command hcommand => hkind command (List.mem_cons_of_mem _ hcommand)
    exact .head ⟨_, hkind _ (List.mem_cons_self ..), by rw [ends]⟩ hrest

end Shell

namespace Blueprint

variable {σ : Type}

/-- Whether a command is one of those that install some target. -/
def Installs (b : Blueprint) (command : String) : Prop :=
  ∃ t commands, b.installCommands t = .ok commands ∧ command ∈ commands

/-- An attempt leads to its final state by install commands only. -/
theorem Attempts.leads {b : Blueprint} {shell : Shell σ} {t : String} {st st' : σ}
    {runs : List Execution} {o : Option Outcome} (h : b.Attempts shell t st runs o st') :
    shell.Leads b.shell b.Installs st st' := by
  cases h with
  | unresolved => exact .refl
  | run known ran => exact ran.leads fun command hcommand => ⟨t, _, known, hcommand⟩

/-- An attempt without an outcome has run all commands of the target. -/
theorem Attempts.exists_ran {b : Blueprint} {shell : Shell σ} {t : String} {st st' : σ}
    {runs : List Execution} (h : b.Attempts shell t st runs none st') :
    ∃ commands, b.installCommands t = .ok commands ∧
      shell.Runs b.shell commands st runs none st' := by
  cases h with
  | run known ran => exact ⟨_, known, ran⟩

/-- Whether checks and installations can be relied on: a check changes nothing, a target passes
its check once all of its commands have exited with 0, and a check that passes goes on to pass
whatever is run to install targets. -/
structure Reliable (b : Blueprint) (shell : Shell σ) : Prop where
  keeps : ∀ t check, b.checkCommand t = .ok check → ∀ st, (shell b.shell check st).2 = st
  takes : ∀ t check commands, b.checkCommand t = .ok check →
    b.installCommands t = .ok commands → ∀ st runs st',
    shell.Runs b.shell commands st runs none st' → shell.Succeeds b.shell check st'
  lasts : ∀ t check, b.checkCommand t = .ok check → ∀ command, b.Installs command → ∀ st,
    shell.Succeeds b.shell check st →
    shell.Succeeds b.shell check (shell b.shell command st).2

variable {b : Blueprint} {shell : Shell σ} {s : StatusReport} {t : String}

/-- A check that passes goes on to pass in all states that installations lead to. -/
theorem Reliable.lasts_of_leads (h : b.Reliable shell) {check : String}
    (hcheck : b.checkCommand t = .ok check) {st st' : σ}
    (hleads : shell.Leads b.shell b.Installs st st') (hst : shell.Succeeds b.shell check st) :
    shell.Succeeds b.shell check st' := by
  induction hleads with
  | refl => exact hst
  | tail _ hstep ih =>
    obtain ⟨command, hinstalls, rfl⟩ := hstep
    exact h.lasts t check hcheck command hinstalls _ ih

/-! ## Checks that change nothing -/

/-- A target is found installed when its check command resolves and succeeds. -/
theorem check_eq_none_iff {st : σ} : (b.check shell t st).1 = none ↔
    ∃ check, b.checkCommand t = .ok check ∧ shell.Succeeds b.shell check st := by
  rw [check]
  cases b.checkCommand t with
  | error e => simp
  | ok command => simp [Shell.classify_eq_none_iff_succeeds]

/-- What is missing has a check that is known. -/
theorem exists_check_of_missing {st : σ} {o : Outcome} (h : (b.check shell t st).1 = some o)
    (hstatus : o.status ≠ .error) : ∃ check, b.checkCommand t = .ok check := by
  rw [check] at h
  cases hcheck : b.checkCommand t with
  | ok check => exact ⟨check, rfl⟩
  | error e =>
    rw [hcheck] at h
    obtain rfl := Option.some.inj h
    exact absurd rfl hstatus

/-- Checks leave no trace on a reliable shell. -/
theorem Reliable.checkTarget_state (h : b.Reliable shell) (t : String) (w : World σ) :
    ((b.checkTarget shell t).run w).2.state = w.state := by
  rw [checkTarget]
  cases hcheck : b.checkCommand t with
  | ok check => exact h.keeps t check hcheck w.state
  | error e => rfl

/-- A pass that only checks leaves the world as it is. -/
theorem Reliable.statusFrom_state (h : b.Reliable shell) :
    ∀ (targets : List String) (r : StatusReport) (w : World σ),
      ((b.statusFrom shell r targets).run w).2.state = w.state := by
  intro targets
  induction targets with
  | nil => intro r w; rfl
  | cons t targets ih =>
    intro r w
    have hstep : (b.statusFrom shell r (t :: targets)).run w =
        (b.statusFrom shell (addStatus r t ((b.checkTarget shell t).run w).1) targets).run
          ((b.checkTarget shell t).run w).2 := rfl
    rw [hstep, ih, h.checkTarget_state]

/-- So each check sees the world as it was before the pass. -/
theorem Reliable.checkIn_eq (h : b.Reliable shell) (w : World σ) (t : String) :
    b.checkIn shell w t = b.check shell t w.state := by
  rw [checkIn, statusBefore, h.statusFrom_state]

/-! ## What an install pass does to the world -/

/-- One step of a pass leads to its final state by install commands only. -/
theorem installStep_leads (r : InstallReport) (t : String) (w : World σ) :
    shell.Leads b.shell b.Installs w.state ((b.installStep shell s r t).run w).2.state := by
  by_cases hmissing : t ∈ s.missing
  · by_cases hfree : b.blockers s r t = []
    · obtain ⟨st', last, hattempts, -, hrun⟩ := installStep_attempted (w := w) hmissing hfree
      rw [hrun]
      exact hattempts.leads
    · rw [installStep_skipped hmissing hfree]
      exact .refl
  · rw [installStep_unneeded hmissing]
    exact .refl

/-- A pass moves the world by commands that install targets, and by nothing else. -/
theorem installFrom_leads : ∀ (targets : List String) (r : InstallReport) (w : World σ),
    shell.Leads b.shell b.Installs w.state ((b.installFrom shell s r targets).run w).2.state := by
  intro targets
  induction targets with
  | nil => intro r w; exact .refl
  | cons t targets ih =>
    intro r w
    rw [installFrom_cons]
    exact (installStep_leads r t w).trans (ih _ _)

/-- Where nothing is missing, a pass does nothing. -/
theorem installFrom_unneeded : ∀ (targets : List String) (r : InstallReport) (w : World σ),
    (∀ t ∈ targets, t ∉ s.missing) → (b.installFrom shell s r targets).run w = (r, w) := by
  intro targets
  induction targets with
  | nil => intro r w _; rfl
  | cons t targets ih =>
    intro r w h
    rw [installFrom_cons, installStep_unneeded (h t (List.mem_cons_self ..))]
    exact ih r w fun t' ht' => h t' (List.mem_cons_of_mem _ ht')

/-- **A target that a pass reports as installed passes its check at the end.** -/
theorem installed_succeeds (harranged : b.Arranged b.order) (h : b.Reliable shell)
    {check : String} (hcheck : b.checkCommand t = .ok check) (w : World σ)
    (hinstalled : t ∈ ((b.installMissing shell s).run w).1.installed) :
    shell.Succeeds b.shell check ((b.installMissing shell s).run w).2.state := by
  have horder : t ∈ b.order := (installMissing_inOrder b shell s w).installed.subset hinstalled
  obtain ⟨before, after, hsplit⟩ := List.append_of_mem horder
  obtain ⟨hmissing, hfree, hnone⟩ :=
    (judged_installed_iff (installMissing_tells shell s harranged w horder)).mp hinstalled
  -- the verdict is based on what is known of the dependencies when the target comes up
  rw [blockers_congr fun d hd => (installBefore_agrees shell s harranged w horder hd).2] at hfree
  rw [installBefore_eq shell s harranged hsplit] at hfree hnone
  have hend : (b.installMissing shell s).run w =
      (b.installFrom shell s ((b.installFrom shell s {} before).run w).1 (t :: after)).run
        ((b.installFrom shell s {} before).run w).2 := by
    rw [← installFrom_append, ← hsplit]
    rfl
  rw [hend, installFrom_cons]
  refine h.lasts_of_leads hcheck (installFrom_leads after _ _) ?_
  obtain ⟨st', last, hattempts, -, hrun⟩ :=
    @installStep_attempted _ b shell s _ t ((b.installFrom shell s {} before).run w).2 hmissing
      hfree
  rw [hrun]
  rw [hnone] at hattempts
  obtain ⟨commands, known, ran⟩ := hattempts.exists_ran
  exact h.takes t check commands hcheck known _ _ _ ran

end Blueprint

/-! ## Checking, installing, checking again -/

section Converges

variable {σ : Type} {c : Config} {b : Blueprint} {shell : Shell σ}

/-- Where checks can be relied on, a check of all targets reports what the world is like. -/
theorem mem_installed_status_iff (h : (Loaded.ofConfig c).result = .ok b)
    (hreliable : b.Reliable shell) (w : World σ) (t : String) :
    t ∈ ((b.status shell).run w).1.installed ↔
      t ∈ b.order ∧ ∃ check, b.checkCommand t = .ok check ∧
        shell.Succeeds b.shell check w.state := by
  rw [(status_tells (order_nodup h) shell w).mem_installed_iff, hreliable.checkIn_eq,
    Blueprint.check_eq_none_iff]

/-- What is reported as missing is declared and has a check that is known. -/
theorem exists_check_of_mem_missing (h : (Loaded.ofConfig c).result = .ok b) (w : World σ)
    {t : String} (ht : t ∈ ((b.status shell).run w).1.missing) :
    ∃ check, b.checkCommand t = .ok check := by
  obtain ⟨-, o, ho, hstatus⟩ := (status_tells (order_nodup h) shell w).mem_missing_iff.mp ht
  exact Blueprint.exists_check_of_missing ho hstatus

/-- What is reported as installed is not reported as missing. -/
theorem notMem_missing_of_mem_installed (h : (Loaded.ofConfig c).result = .ok b) (w : World σ)
    {t : String} (ht : t ∈ ((b.status shell).run w).1.installed) :
    t ∉ ((b.status shell).run w).1.missing := by
  have htells := status_tells (order_nodup h) shell w
  intro hmissing
  obtain ⟨-, hnone⟩ := htells.mem_installed_iff.mp ht
  obtain ⟨-, o, ho, -⟩ := htells.mem_missing_iff.mp hmissing
  rw [hnone] at ho
  exact nomatch ho

/-- What the first check or the pass after it reports as installed is found by the next check. -/
theorem mem_installed_again (h : (Loaded.ofConfig c).result = .ok b)
    (hreliable : b.Reliable shell) (w : World σ) {t : String} :
    let first := (b.status shell).run w
    let pass := (b.installMissing shell first.1).run first.2
    t ∈ first.1.installed ∨ t ∈ pass.1.installed →
      t ∈ ((b.status shell).run pass.2).1.installed := by
  intro first pass ht
  have harranged := order_arranged h
  rw [mem_installed_status_iff h hreliable]
  rcases ht with hfirst | hpass
  · -- the check has passed before the pass, and the pass only runs commands
    obtain ⟨horder, check, hcheck, hst⟩ := (mem_installed_status_iff h hreliable w t).mp hfirst
    refine ⟨horder, check, hcheck, ?_⟩
    have hkept : first.2.state = w.state := hreliable.statusFrom_state b.order {} w
    rw [← hkept] at hst
    exact hreliable.lasts_of_leads hcheck (Blueprint.installFrom_leads b.order {} first.2) hst
  · have horder : t ∈ b.order :=
      (Blueprint.installMissing_inOrder b shell first.1 first.2).installed.subset hpass
    have hmissing : t ∈ first.1.missing :=
      ((Blueprint.judged_installed_iff
        (Blueprint.installMissing_tells shell first.1 harranged first.2 horder)).mp hpass).1
    obtain ⟨check, hcheck⟩ := exists_check_of_mem_missing h w hmissing
    exact ⟨horder, check, hcheck,
      Blueprint.installed_succeeds harranged hreliable hcheck first.2 hpass⟩

/-- **Checking, installing and checking again converge.** Where checks and installations can be
relied on, what the first check or the pass after it reports as installed is reported as installed
by the second check, and no further pass on the second report attempts it. If the first check
found no error and the pass succeeded, the second report is complete, and a further pass on it
leaves the world and its events as they are. -/
theorem status_converges (h : (Loaded.ofConfig c).result = .ok b) (hreliable : b.Reliable shell)
    (w : World σ) :
    let first := (b.status shell).run w
    let pass := (b.installMissing shell first.1).run first.2
    let second := (b.status shell).run pass.2
    (∀ t, t ∈ first.1.installed ∨ t ∈ pass.1.installed →
      t ∈ second.1.installed ∧ ∀ w', ¬ b.Attempted shell second.1 w' t) ∧
    (first.1.errors = [] → pass.1.success = true →
      second.1.isComplete = true ∧
      ∀ w', (b.installMissing shell second.1).run w' = ({}, w')) := by
  intro first pass second
  have harranged := order_arranged h
  have hagain : ∀ t, t ∈ first.1.installed ∨ t ∈ pass.1.installed → t ∈ second.1.installed :=
    fun t => mem_installed_again h hreliable w
  have hleft : ∀ t, t ∈ second.1.installed → t ∉ second.1.missing :=
    fun t => notMem_missing_of_mem_installed h pass.2
  refine ⟨fun t ht => ⟨hagain t ht, fun w' hattempted => ?_⟩, fun herrors hsuccess => ?_⟩
  · exact hleft t (hagain t ht) (hattempted.free harranged).1
  · -- each target is installed at first, or missing and then installed by the pass
    have hall : ∀ t ∈ b.order, t ∈ second.1.installed := by
      intro t ht
      have hlisted := (status_tells harranged.nodup shell w).perm.mem_iff.mpr ht
      change t ∈ first.1.installed ++ first.1.missing ++ first.1.errors at hlisted
      rw [herrors, List.append_nil, List.mem_append] at hlisted
      refine hagain t (hlisted.imp_right fun hmissing => ?_)
      exact (success_iff shell first.1 h first.2).mp hsuccess t ((mem_order_iff h t).mp ht) hmissing
    refine ⟨?_, fun w' => ?_⟩
    · have htells := status_tells harranged.nodup shell pass.2
      rw [htells.isComplete_iff]
      exact fun t ht => (htells.mem_installed_iff.mp (hall t ht)).2
    · exact Blueprint.installFrom_unneeded b.order {} w' fun t ht => hleft t (hall t ht)

end Converges

/-! ## A shell that can be relied on -/

/-- A shell that knows which command each check looks for: a check exits with 0 if that command
has been run, and any other command is remembered. -/
def Shell.remembering (checks : List (String × String)) : Shell (List String) :=
  fun _ command done =>
    match checks.lookup command with
    | some made => (.ok ⟨if made ∈ done then 0 else 1, "", ""⟩, done)
    | none => (.ok ⟨0, "", ""⟩, command :: done)

/-- Two targets with checks of their own, the dependency written last. -/
def Config.furnished : Config where
  version := "1.0"
  name := "furnished"
  targets :=
    ⟨[("app", { dependsOn := ["base"], check := some (.command "have app"),
                setup := [.command "make app"] }),
      ("base", { check := some (.command "have base"), setup := [.command "make base"] })],
      by decide⟩

/-- The configuration of the example is accepted. -/
theorem furnished_accepted :
    (Loaded.ofConfig .furnished).result = .ok (.ofConfig .furnished) :=
  (Loaded.ofConfig_eq_ok_iff _ _).mpr ⟨rfl, by decide⟩

/-- What the checks of these targets look for. -/
def furnishedChecks : List (String × String) :=
  [("have app", "make app"), ("have base", "make base")]

/-- The check of each of these targets looks for the one command that installs it. -/
theorem furnished_check {t check : String}
    (h : (Blueprint.ofConfig .furnished).checkCommand t = .ok check) :
    ∃ made, furnishedChecks.lookup check = some made ∧ furnishedChecks.lookup made = none ∧
      (Blueprint.ofConfig .furnished).installCommands t = .ok [made] := by
  by_cases happ : t = "app"
  · subst happ
    obtain rfl : "have app" = check := Except.ok.inj h
    exact ⟨"make app", by decide, by decide, rfl⟩
  · by_cases hbase : t = "base"
    · subst hbase
      obtain rfl : "have base" = check := Except.ok.inj h
      exact ⟨"make base", by decide, by decide, rfl⟩
    · -- no other target is declared
      have hnone : (Blueprint.ofConfig .furnished).procedures.get? t = none := by
        rw [Registry.get?_eq_none_iff, Blueprint.keys_procedures_ofConfig]
        simp [Config.furnished, Registry.keys, happ, hbase]
      rw [Blueprint.checkCommand, Blueprint.procedureOf, hnone] at h
      cases h

/-- A shell that remembers what was made is reliable for it. -/
theorem furnished_reliable :
    (Blueprint.ofConfig .furnished).Reliable (.remembering furnishedChecks) := by
  have hsucceeds : ∀ {program check made : String} (done : List String),
      furnishedChecks.lookup check = some made →
        ((Shell.remembering furnishedChecks).Succeeds program check done ↔ made ∈ done) := by
    intro program check made done hlookup
    by_cases hmade : made ∈ done <;> simp [Shell.Succeeds, Shell.remembering, hlookup, hmade]
  refine ⟨fun t check hcheck st => ?_, fun t check commands hcheck hknown st runs st' hruns => ?_,
    fun t check hcheck command _ st hst => ?_⟩
  · obtain ⟨made, hlookup, -, -⟩ := furnished_check hcheck
    simp [Shell.remembering, hlookup]
  · obtain ⟨made, hlookup, hmade, honly⟩ := furnished_check hcheck
    rw [hknown] at honly
    obtain rfl := Except.ok.inj honly
    rw [hsucceeds st' hlookup]
    -- the one command has been run, and is remembered
    cases hruns with
    | next ends _ goesOn =>
      cases goesOn with
      | done =>
        simp only [Shell.remembering, hmade, Prod.mk.injEq] at ends
        rw [← ends.2]
        exact List.mem_cons_self ..
  · obtain ⟨made, hlookup, -, -⟩ := furnished_check hcheck
    rw [hsucceeds st hlookup] at hst
    rw [hsucceeds _ hlookup]
    rw [Shell.remembering]
    split
    · exact hst
    · exact List.mem_cons_of_mem _ hst

/-- After one pass everything is found installed, and a second pass runs nothing. -/
theorem status_converges_furnished :
    (Loaded.ofConfig .furnished).result = .ok (.ofConfig .furnished) ∧
    (Blueprint.ofConfig .furnished).Reliable (.remembering furnishedChecks) ∧
    (let b := Blueprint.ofConfig .furnished
     let shell := Shell.remembering furnishedChecks
     let first := (b.status shell).run ⟨["make base"], []⟩
     let pass := (b.installMissing shell first.1).run first.2
     first.1.missing = ["app"] ∧ pass.1.success = true ∧
     ((b.status shell).run pass.2).1.isComplete = true) :=
  ⟨furnished_accepted, furnished_reliable, by decide, by decide,
    ((status_converges furnished_accepted furnished_reliable ⟨["make base"], []⟩).2
      (by decide) (by decide)).1⟩

end Provision
