import Provision.Registry

/-!
# Outcomes

Why a target is not installed. An installed target has no outcome.

Mirrors `TargetStatus`, `Outcome`, `StatusReport` and `InstallReport`.
-/

namespace Provision

/-- The kinds of outcome. -/
inductive Status
  /-- The check or a setup command exited with 1. -/
  | notInstalled
  /-- Any other exit code, or no command to run. -/
  | error
  /-- Not attempted, because a dependency is not installed. -/
  | skipped
deriving DecidableEq, Repr

/-- The name of a kind as tables show it. -/
def Status.text : Status → String
  | notInstalled => "NOT INSTALLED"
  | error => "ERROR"
  | skipped => "SKIPPED"

/-- The name of a kind as data bear it. -/
def Status.tag : Status → String
  | notInstalled => "not_installed"
  | error => "error"
  | skipped => "skipped"

/-- The kind of a name. -/
def Status.ofTag? (s : String) : Option Status :=
  [Status.notInstalled, .error, .skipped].find? fun k => k.tag == s

/-- The tags of the statuses are read back. -/
theorem Status.ofTag?_tag (k : Status) : ofTag? k.tag = some k := by cases k <;> rfl

/-- Why a target is not installed. -/
structure Outcome where
  status : Status
  detail : String
deriving DecidableEq, Repr

/-- The result of checking every target. -/
structure StatusReport where
  installed : List String := []
  missing : List String := []
  errors : List String := []
  /-- The outcome of each target that is not installed. -/
  outcomes : Registry Outcome := ∅

/-- Whether nothing is missing and nothing went wrong. -/
def StatusReport.isComplete (r : StatusReport) : Bool := r.missing.isEmpty && r.errors.isEmpty

/-- The result of installing what is missing. -/
structure InstallReport where
  installed : List String := []
  failed : List String := []
  skipped : List String := []
  /-- The outcome of each target that was not installed. -/
  outcomes : Registry Outcome := ∅

/-- Whether nothing failed and nothing was skipped. -/
def InstallReport.success (r : InstallReport) : Bool := r.failed.isEmpty && r.skipped.isEmpty

end Provision
