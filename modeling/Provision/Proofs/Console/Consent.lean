import Provision.Proofs.Console.Answer
import Provision.Proofs.Pass.Classification
import Provision.Proofs.Pass.Safety
import Provision.Proofs.Pass.Status

/-!
# Nothing is installed without consent

An installation from the console is a status pass, a question and an install pass. What is said in
between changes nothing in the world: what has been run follows from the two passes, and the second
one takes place only if something is missing and the user has agreed.

> `confirm_run`: the user agrees by a yes, and by nothing else;
> `proceed_run`: after the checks, an install pass takes place exactly if it is agreed to;
> `install_consented`: what an installation runs and returns, for any file, shell and input.
-/

namespace Provision

/-! ## Steps of a console -/

namespace Terminal

variable {σ : Type} {t t' t'' : Terminal σ}

/-- Whether all that has happened from one terminal to the other is that something was said. -/
def OnlySays (t t' : Terminal σ) : Prop := ∃ said, t' = { t with said := said }

theorem OnlySays.refl (t : Terminal σ) : t.OnlySays t := ⟨t.said, rfl⟩

/-- What is only said before and after is only said altogether. -/
theorem OnlySays.trans (h : t.OnlySays t') (h' : t'.OnlySays t'') : t.OnlySays t'' := by
  obtain ⟨_, rfl⟩ := h
  obtain ⟨said, rfl⟩ := h'
  exact ⟨said, rfl⟩

/-- Whether the user agrees when asked: the question can be put, and the input begins with a yes. -/
def Agrees (t : Terminal σ) : Prop := t.mute = none ∧ SaysYes t.input

end Terminal

namespace Console

variable {σ α β : Type}

theorem run_pure (a : α) (t : Terminal σ) : (pure a : Console σ α).run t = (a, t) := rfl

theorem run_bind (x : Console σ α) (f : α → Console σ β) (t : Terminal σ) :
    (x >>= f).run t = (f (x.run t).1).run (x.run t).2 := rfl

theorem run_get (t : Terminal σ) : (get : Console σ (Terminal σ)).run t = (t, t) := rfl

theorem say_onlySays (u : Utterance) (t : Terminal σ) :
    t.OnlySays ((say u).run t).2 := ⟨_, rfl⟩

/-- Passing on a journal says its entries and does nothing else. -/
theorem forM_say_onlySays (entries : List Log.Entry) (t : Terminal σ) :
    t.OnlySays ((entries.forM fun e => (say (.log e) : Console σ Unit)).run t).2 := by
  induction entries generalizing t with
  | nil => exact .refl t
  | cons e entries ih => exact (say_onlySays (.log e) t).trans (ih _)

/-- The user agrees by a yes to the question, and by nothing else. -/
theorem confirm_run (t : Terminal σ) :
    ((confirm.run t).1 = true ↔ t.Agrees) ∧ t.OnlySays (confirm.run t).2 := by
  obtain ⟨said, hprompt⟩ : t.OnlySays ((put "proceed? [y/N]: ").run t).2 := say_onlySays _ t
  rw [Terminal.Agrees, ← Answer.ofInput_eq_yes_iff, confirm, run_bind, run_get]
  dsimp only
  cases t.mute with
  | some reason => exact ⟨iff_of_false nofun nofun, _, rfl⟩
  | none =>
    dsimp only
    rw [run_bind, hprompt]
    cases Answer.ofInput t.input with
    | yes => exact ⟨iff_of_true rfl ⟨rfl, rfl⟩, _, rfl⟩
    | no => exact ⟨iff_of_false nofun nofun, _, rfl⟩
    | unreadable => exact ⟨iff_of_false nofun nofun, _, rfl⟩

/-- Without the option, the user has to agree. -/
theorem agree_run (yes : Bool) (t : Terminal σ) :
    (((if yes = true then pure true else confirm : Console σ Bool).run t).1 = true ↔
      yes = true ∨ t.Agrees) ∧
    t.OnlySays ((if yes = true then pure true else confirm : Console σ Bool).run t).2 := by
  cases yes with
  | true => exact ⟨iff_of_true rfl (.inl rfl), .refl t⟩
  | false => simpa using confirm_run t

/-- With a valid configuration, a command runs on its blueprint, after the journal of loading it.
-/
theorem withBlueprint_run_ok {l : Loaded} {b : Blueprint} (h : l.result = .ok b)
    (f : Blueprint → Console σ CommandResult) (t : Terminal σ) :
    (withBlueprint l f).run t =
      (f b).run ((l.journal.forM fun e => (say (.log e) : Console σ Unit)).run t).2 := by
  rw [withBlueprint, run_bind, h]

/-- Without one, a command ends there with the error of loading. -/
theorem withBlueprint_run_error {l : Loaded} {e : LoadError} (h : l.result = .error e)
    (f : Blueprint → Console σ CommandResult) (t : Terminal σ) :
    (withBlueprint l f).run t = (.error (.load e),
      ((l.journal.forM fun e => (say (.log e) : Console σ Unit)).run t).2) := by
  rw [withBlueprint, run_bind, h]
  rfl

/-! ## Installations -/

/-- The last part of an installation, by itself: the pass that follows if the user has agreed. -/
def carryOut (shell : Shell σ) (b : Blueprint) (s : StatusReport) : Console σ CommandResult := do
  let result ← perform (b.installMissing shell s)
  put result.text
  if result.success then return .ok ()
  else return .error (.unfinished result.failed.length result.skipped.length)

/-- All of an installation that follows the checks. -/
def proceed (shell : Shell σ) (b : Blueprint) (yes : Bool) (s : StatusReport) :
    Console σ CommandResult := do
  if s.missing.isEmpty then return .ok ()
  let agreed ← (if yes then pure true else confirm)
  if !agreed then
    put (Text.line "Exiting")
    return .ok ()
  carryOut shell b s

/-- What is run is the pass; its report decides about the end. -/
theorem carryOut_run (shell : Shell σ) (b : Blueprint) (s : StatusReport) (t : Terminal σ) :
    let pass := (b.installMissing shell s).run ⟨t.state, []⟩
    let r := (carryOut shell b s).run t
    (r.1 = .ok () ↔ pass.1.success = true) ∧
    (∀ e, r.1 = .error e → e = .unfinished pass.1.failed.length pass.1.skipped.length) ∧
    r.2.state = pass.2.state ∧ r.2.events = t.events ++ pass.2.events := by
  intro pass r
  have hpass : ((perform (b.installMissing shell s)).run t).1 = pass.1 := rfl
  have hrun : r = (carryOut shell b s).run t := rfl
  rw [carryOut, run_bind, run_bind, hpass] at hrun
  rw [hrun]
  by_cases hsuccess : pass.1.success = true
  · rw [if_pos hsuccess]
    exact ⟨iff_of_true rfl hsuccess, nofun, rfl, rfl⟩
  · rw [if_neg hsuccess]
    exact ⟨iff_of_false nofun hsuccess, fun e he => (Except.error.inj he).symm, rfl, rfl⟩

/-- After the checks, an install pass takes place exactly if something is missing and the user has
agreed. -/
theorem proceed_run (shell : Shell σ) (b : Blueprint) (yes : Bool) (s : StatusReport)
    (t : Terminal σ) :
    (s.missing = [] ∨ ¬ (yes = true ∨ t.Agrees) →
      ((proceed shell b yes s).run t).1 = .ok () ∧
      t.OnlySays ((proceed shell b yes s).run t).2) ∧
    (s.missing ≠ [] → yes = true ∨ t.Agrees → ∃ t', t.OnlySays t' ∧
      (proceed shell b yes s).run t = (carryOut shell b s).run t') := by
  rw [proceed]
  by_cases hmissing : s.missing = []
  · rw [if_pos (List.isEmpty_iff.mpr hmissing)]
    exact ⟨fun _ => ⟨rfl, .refl t⟩, fun hne => absurd hmissing hne⟩
  · rw [if_neg (mt List.isEmpty_iff.mp hmissing), run_bind]
    obtain ⟨hagreed, hasked⟩ := agree_run yes t
    rw [or_iff_right hmissing, ← hagreed]
    -- however the question has been answered, it has only been talked about
    generalize ((if yes = true then pure true else confirm : Console σ Bool).run t) = asked
      at hasked ⊢
    obtain ⟨agreed, t'⟩ := asked
    cases agreed with
    | true => exact ⟨fun hno => absurd rfl hno, fun _ _ => ⟨t', hasked, rfl⟩⟩
    | false => exact ⟨fun _ => ⟨rfl, hasked.trans (say_onlySays _ _)⟩, fun _ hyes => nomatch hyes⟩

/-- An installation checks every target before it goes on. -/
theorem install_run {l : Loaded} {b : Blueprint} (h : l.result = .ok b) (shell : Shell σ)
    (yes : Bool) (t : Terminal σ) :
    let checked := (b.status shell).run ⟨t.state, []⟩
    ∃ said, (install shell l yes).run t = (proceed shell b yes checked.1).run
      { t with state := checked.2.state, events := t.events ++ checked.2.events, said := said } := by
  intro checked
  -- once the log has been told, all steps up to the end of the checks can be computed
  obtain ⟨said, hsaid⟩ := forM_say_onlySays l.journal t
  rw [install, withBlueprint_run_ok h, hsaid]
  exact ⟨_, rfl⟩

end Console

/-! ## What the passes run -/

namespace Blueprint

variable {σ : Type} {b : Blueprint} {shell : Shell σ}

/-- A check runs the check command where there is one and nothing else. -/
theorem check_commands (b : Blueprint) (shell : Shell σ) (t : String) (st : σ) :
    (b.check shell t st).2.map Execution.command = (b.checkCommand t).toOption.toList := by
  rw [check]
  cases b.checkCommand t <;> rfl

/-- A status pass runs the commands of the checks, and nothing else. -/
theorem status_commands (hnodup : b.order.Nodup) (st : σ) :
    ((b.status shell).run ⟨st, []⟩).2.executions.map Execution.command =
      b.order.filterMap fun t => (b.checkCommand t).toOption := by
  have hruns := (b.statusFrom_tells shell hnodup ⟨st, []⟩ b.order (List.append_nil _).symm).2
  show ((b.statusFrom shell {} b.order).run ⟨st, []⟩).2.executions.map _ = _
  rw [hruns]
  show (b.order.flatMap fun t => (b.checkIn shell ⟨st, []⟩ t).2).map _ = _
  rw [List.map_flatMap, List.filterMap_eq_flatMap_toList]
  exact congrArg (b.order.flatMap ·) (funext fun t => check_commands b shell t _)

/-- An install pass runs commands that install missing targets, and nothing else. -/
theorem installMissing_commands (harranged : b.Arranged b.order) {s : StatusReport} {st : σ}
    {e : Execution} (he : e ∈ ((b.installMissing shell s).run ⟨st, []⟩).2.executions) :
    ∃ t ∈ s.missing, ∃ commands, b.installCommands t = .ok commands ∧ e.command ∈ commands := by
  have hruns := installFrom_executions shell s harranged ⟨st, []⟩ b.order
    (List.append_nil _).symm
  change e ∈ ((b.installFrom shell s {} b.order).run ⟨st, []⟩).2.executions at he
  rw [hruns] at he
  -- each command has been run by the attempt at some target, from its first command on
  obtain ⟨t, ht, he⟩ := List.mem_flatMap.mp he
  have ht : b.Attempted shell s ⟨st, []⟩ t := by simpa using (List.mem_filter.mp ht).2
  obtain ⟨st', hattempts, -⟩ := b.attempt_run shell t ((b.installBefore shell s t).run ⟨st, []⟩).2
  obtain ⟨commands, hcommands, hprefix⟩ := hattempts.commands_isPrefix he
  exact ⟨t, (ht.free harranged).1, commands, hcommands,
    hprefix.subset (List.mem_map_of_mem he)⟩

end Blueprint

/-! ## Consent -/

/-- What is loaded from a file is the blueprint of an accepted configuration. -/
theorem Loaded.exists_config_of_ofFile {files : Files} {path : String} {b : Blueprint}
    (h : (Loaded.ofFile files path).result = .ok b) :
    ∃ c, (Loaded.ofConfig c).result = .ok b := by
  rw [ofFile] at h
  split at h
  · exact nomatch h
  · dsimp only [ofText] at h
    split at h
    next c _ => exact ⟨c, h⟩
    · exact nomatch h

/-- **Nothing is installed without consent.** If there is no valid configuration, nothing is run.
Otherwise the commands of the checks are run. If nothing is missing, or the user has neither agreed
beforehand nor begun the input with a yes to a question that could be put, this is all, and it is
no failure. If something is missing and the user has agreed, an install pass follows, in which
nothing is run but commands that install missing targets. It is a failure exactly if one of these
has not been installed; it tells how many have failed and how many have been skipped, each counted
once. -/
theorem install_consented {σ : Type} (shell : Shell σ) (files : Files) (path : String) (yes : Bool)
    (t : Terminal σ) :
    let r := (Console.install shell (Loaded.ofFile files path) yes).run t
    let agreed := yes = true ∨ t.mute = none ∧ SaysYes t.input
    (∀ e, (Loaded.ofFile files path).result = .error e →
      r.1 = .error (.load e) ∧ r.2.state = t.state ∧ r.2.events = t.events) ∧
    (∀ b, (Loaded.ofFile files path).result = .ok b →
      let checked := (b.status shell).run ⟨t.state, []⟩
      let pass := (b.installMissing shell checked.1).run ⟨checked.2.state, []⟩
      let missing := checked.1.missing
      checked.2.executions.map Execution.command =
        b.order.filterMap (fun target => (b.checkCommand target).toOption) ∧
      (missing = [] ∨ ¬ agreed → r.1 = .ok () ∧ r.2.state = checked.2.state ∧
        r.2.events = t.events ++ checked.2.events) ∧
      (missing ≠ [] → agreed → r.2.state = pass.2.state ∧
        r.2.events = t.events ++ checked.2.events ++ pass.2.events ∧
        (∀ e ∈ pass.2.executions, ∃ target ∈ missing, ∃ commands,
          b.installCommands target = .ok commands ∧ e.command ∈ commands) ∧
        (r.1 = .ok () ↔ ∀ target ∈ missing, target ∈ pass.1.installed) ∧
        (∀ e, r.1 = .error e → e.message =
          s!"{pass.1.failed.length} target(s) failed, {pass.1.skipped.length} skipped") ∧
        (pass.1.installed ++ pass.1.failed ++ pass.1.skipped).Nodup ∧
        ∀ target, target ∈ pass.1.installed ++ pass.1.failed ++ pass.1.skipped ↔
          target ∈ missing)) := by
  intro r agreed
  constructor
  · intro e herror
    obtain ⟨said, hsaid⟩ := Console.forM_say_onlySays (Loaded.ofFile files path).journal t
    have hrun : r = (.error (.load e), { t with said := said }) := by
      rw [← hsaid]
      exact Console.withBlueprint_run_error herror _ t
    rw [hrun]
    exact ⟨rfl, rfl, rfl⟩
  · intro b hloaded checked pass missing
    obtain ⟨c, h⟩ := Loaded.exists_config_of_ofFile hloaded
    have harranged := order_arranged h
    -- what the checks report as missing is declared
    have hdeclared : ∀ target ∈ missing, target ∈ c.targets.keys := by
      intro target hmissing
      have htells := status_tells harranged.nodup shell ⟨t.state, []⟩
      exact (mem_order_iff h target).mp (htells.mem_missing_iff.mp hmissing).1
    obtain ⟨said, hrun⟩ := Console.install_run hloaded shell yes t
    obtain ⟨hdeclines, hagrees⟩ := Console.proceed_run shell b yes checked.1
      { t with state := checked.2.state, events := t.events ++ checked.2.events, said := said }
    change r = _ at hrun
    refine ⟨b.status_commands harranged.nodup t.state, fun hno => ?_, fun hmissing hagreed => ?_⟩
    · obtain ⟨hresult, said', hsaid⟩ := hdeclines hno
      rw [hrun]
      exact ⟨hresult, congrArg Terminal.state hsaid, congrArg Terminal.events hsaid⟩
    · obtain ⟨_, ⟨said', rfl⟩, hcarried⟩ := hagrees hmissing hagreed
      obtain ⟨hok, herror, hstate, hevents⟩ := Console.carryOut_run shell b checked.1
        { t with state := checked.2.state, events := t.events ++ checked.2.events, said := said' }
      rw [hrun, hcarried]
      refine ⟨hstate, hevents, fun e he => Blueprint.installMissing_commands harranged he,
        ?_, fun e he => ?_, lists_nodup shell checked.1 harranged _, fun target => ?_⟩
      · -- a pass succeeds exactly if all that is declared and missing is installed
        rw [hok, success_iff shell checked.1 h]
        exact ⟨fun hall target ht => hall target (hdeclared target ht) ht,
          fun hall target _ ht => hall target ht⟩
      · rw [herror e he]
        rfl
      · rw [mem_lists_iff shell checked.1 h]
        exact and_iff_right_of_imp (hdeclared target)

end Provision
