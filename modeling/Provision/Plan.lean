import Provision.Pass
import Provision.Text.Column

/-!
# Plans and results

What an installation is going to do, and what it has done, as texts.

Mirrors `format_install_plan` and `format_install_result`.
-/

namespace Provision

/-- The margin of a target below a heading. -/
def margin : String := "    "

/-- Targets below a heading, with a line about each that has one. -/
def headed (heading : List String) (targets : List String) (about : String → Option String) :
    List String :=
  if targets.isEmpty then []
  else heading ++ targets.flatMap fun t =>
    (margin ++ t) :: (about t).toList.map fun s => margin ++ margin ++ s

/-- What an installation is going to do after a check of every target. -/
def Blueprint.planText (b : Blueprint) (r : StatusReport) : String :=
  if b.procedures.isEmpty then Text.line "No targets found. Nothing to do."
  else
    let here := headed ["These are already installed:"] r.installed fun _ => none
    let wrong := headed ["", "These encountered errors and will not be installed:"] r.errors
      fun t => (r.outcomes.get? t).map fun o => "⤷ " ++ Text.oneLine o.detail
    let rest :=
      if r.missing.isEmpty then ["", "Everything that can be installed is already installed"]
      else headed ["", "These will be installed with the following commands:"] r.missing
        fun t => some ("⤷ " ++ b.describeInstall t)
    Text.lines (here ++ wrong ++ rest)

/-- What an installation has done. -/
def InstallReport.text (r : InstallReport) : String :=
  let outcome (t : String) : Option String :=
    (r.outcomes.get? t).map fun o => o.status.text ++ ": " ++ Text.oneLine o.detail
  if r.installed.isEmpty && r.failed.isEmpty && r.skipped.isEmpty then
    Text.line "Nothing was done."
  else Text.lines (headed ["", "Installed successfully:"] r.installed (fun _ => none) ++
    headed ["", "Failed to install:"] r.failed outcome ++
    headed ["", "Skipped:"] r.skipped outcome)

end Provision
