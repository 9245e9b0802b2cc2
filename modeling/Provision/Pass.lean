import Provision.Pass.Procedure
import Provision.Shell
import Provision.Text.Blank

/-!
# Checking and installing

A check is one command; an installation is a list of commands that ends with the first one
that fails. Both passes follow the order of installation, one command at a time.

> `status`: checks every target;
> `installMissing`: installs the missing targets that are not blocked by a dependency.

Mirrors `classify`, `run`, `check_target_status`, `install_target`, `status` and
`install_missing`. A command runs on a state of the world that is passed on, and what the
program logs is an event of that world; the loops over the order are folds over it.
-/

namespace Provision

/-- What the end of a command says of a target: 0 is success, 1 is "not installed", and
anything else is an error. -/
def classify : RunResult → Option Outcome
  | .error e => some ⟨.error, e.message⟩
  | .ok f =>
    if f.exitCode = 0 then none
    else if f.exitCode = 1 then some ⟨.notInstalled, f.stdout⟩
    else some ⟨.error, Text.trim f.stderr⟩

namespace Blueprint

variable {σ : Type}

/-- Runs a command and classifies its end. -/
def run (b : Blueprint) (shell : Shell σ) (command : String) : Run σ (Option Outcome) :=
  classify <$> Run.exec shell b.shell command

/-- Runs the check of a target. -/
def checkTarget (b : Blueprint) (shell : Shell σ) (target : String) : Run σ (Option Outcome) :=
  match b.checkCommand target with
  | .ok command => b.run shell command
  | .error e => pure (some e.outcome)

/-- Runs commands up to the first one that fails. -/
def runAll (b : Blueprint) (shell : Shell σ) : List String → Run σ (Option Outcome)
  | [] => pure none
  | command :: rest => do
    match ← b.run shell command with
    | some o => return some o
    | none => runAll b shell rest

/-- Installs a target. Nothing is run unless all its commands are known. -/
def installTarget (b : Blueprint) (shell : Shell σ) (target : String) : Run σ (Option Outcome) :=
  match b.installCommands target with
  | .ok commands => b.runAll shell commands
  | .error e => pure (some e.outcome)

/-! ## Checking all targets -/

/-- Puts the result of a check into a report. -/
def addStatus (r : StatusReport) (target : String) : Option Outcome → StatusReport
  | none => { r with installed := r.installed ++ [target] }
  | some o =>
    let r := { r with outcomes := r.outcomes.insert target o }
    if o.status = .error then { r with errors := r.errors ++ [target] }
    else { r with missing := r.missing ++ [target] }

/-- Checks every target. -/
def status (b : Blueprint) (shell : Shell σ) : Run σ StatusReport :=
  b.order.foldlM (fun r target => addStatus r target <$> b.checkTarget shell target) {}

/-! ## Installing what is missing -/

/-- Whether a target keeps those that depend on it from being attempted. -/
def isBlocked (s : StatusReport) (r : InstallReport) (target : String) : Bool :=
  s.errors.contains target || r.failed.contains target || r.skipped.contains target

/-- The dependencies of a target that block it. -/
def blockers (b : Blueprint) (s : StatusReport) (r : InstallReport) (target : String) :
    List String :=
  (b.dependenciesOf target).filter (isBlocked s r)

/-- Skips a target, or attempts to install it. -/
def installStep (b : Blueprint) (shell : Shell σ) (s : StatusReport) (r : InstallReport)
    (target : String) : Run σ InstallReport := do
  if !s.missing.contains target then return r
  let blockers := b.blockers s r target
  if !blockers.isEmpty then
    Run.note (.skipped target blockers)
    let o : Outcome := ⟨.skipped, "dependency failed: " ++ ", ".intercalate blockers⟩
    return { r with skipped := r.skipped ++ [target], outcomes := r.outcomes.insert target o }
  Run.note (.installing target)
  match ← b.installTarget shell target with
  | none =>
    Run.note (.installed target)
    return { r with installed := r.installed ++ [target] }
  | some o =>
    Run.note (.failed target o.detail)
    return { r with failed := r.failed ++ [target], outcomes := r.outcomes.insert target o }

/-- Installs every missing target. -/
def installMissing (b : Blueprint) (shell : Shell σ) (s : StatusReport) : Run σ InstallReport :=
  b.order.foldlM (b.installStep shell s) {}

end Blueprint

/-! ## The log -/

/-- What the log tells about an event. -/
def Event.journal : Event → List Log.Entry
  | ran program command result =>
    ⟨.debug, .transport, s!"exec [{program}]: {command}"⟩ :: match result with
      | .error _ => []
      | .ok f =>
        [⟨.debug, .transport, s!"exit {f.exitCode} ({f.stdout.utf8ByteSize} bytes stdout)"⟩]
  | installing target => [⟨.info, .executor, s!"installing {target}"⟩]
  | installed target => [⟨.info, .executor, s!"installed {target}"⟩]
  | failed target detail => [⟨.info, .executor, s!"failed {target}: {Text.trim detail}"⟩]
  | skipped target blockers =>
    [⟨.warn, .executor,
      s!"skipping {target}: dependency failed: " ++ ", ".intercalate blockers⟩]

end Provision
