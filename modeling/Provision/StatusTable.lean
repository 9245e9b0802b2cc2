import Provision.Pass
import Provision.Listing

/-!
# Status tables

The result of checking every target as a table: a line for each target with its dependencies,
its status and the output of its check on one line, and a line with the counts.

> `StatusTable.render`: a header, the rows, an empty line and the counts.

Mirrors `format_status` and `one_line`.
-/

namespace Provision

/-- A line of the table. -/
structure StatusRow where
  target : String
  dependencies : String
  status : String
  detail : String

/-- The width of the column that shows the status. -/
def StatusRow.statusWidth : Nat := 13

/-- A row in columns of the given widths. -/
def StatusRow.render (targets dependencies : Nat) (r : StatusRow) : String :=
  Text.padded targets r.target ++ "  " ++ Text.padded dependencies r.dependencies ++ "  " ++
    Text.padded statusWidth r.status ++ "  " ++ r.detail

/-- The names of the columns. -/
def StatusRow.header : StatusRow := ⟨"target", "dependencies", "status", "details"⟩

/-- The rows of the targets, and the numbers of targets that are installed, missing and
wrong. -/
structure StatusTable where
  rows : List StatusRow
  installed : Nat
  missing : Nat
  errors : Nat

namespace StatusTable

/-- The row of a target. -/
def row (b : Blueprint) (r : StatusReport) (target : String) : StatusRow :=
  let (status, detail) := match r.outcomes.get? target with
    | some o => (o.status.text, Text.oneLine o.detail)
    | none => ("INSTALLED", "")
  ⟨target, b.dependencyText target, status, detail⟩

/-- The table of a report. -/
def ofReport (b : Blueprint) (r : StatusReport) : StatusTable :=
  ⟨b.order.map (row b r), r.installed.length, r.missing.length, r.errors.length⟩

/-- The width of the column of targets. -/
def targetWidth (t : StatusTable) : Nat := Text.widest 6 (t.rows.map StatusRow.target)

/-- The width of the column of dependencies. -/
def dependencyWidth (t : StatusTable) : Nat :=
  Text.widest 12 (t.rows.map StatusRow.dependencies)

/-- The counts as the last line of the table. -/
def footer (t : StatusTable) : String :=
  s!"{t.installed} installed, {t.missing} missing, {t.errors} error(s)"

/-- The lines of the table. -/
def lines (t : StatusTable) : List String :=
  (StatusRow.header :: t.rows).map (StatusRow.render t.targetWidth t.dependencyWidth) ++
    ["", t.footer]

/-- The table as a text. -/
def render (t : StatusTable) : String := Text.lines t.lines

end StatusTable

end Provision
