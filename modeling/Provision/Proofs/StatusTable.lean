import Mathlib.Data.List.Forall2
import Provision.StatusTable
import Provision.Proofs.Pass.Status
import Provision.Proofs.Text.Column

/-!
# Status tables, line by line

A table of the status of all targets is a header, a line for each target in the order of
installation, an empty line and the counts. Columns are measured in bytes and filled up to a number
of characters. As a text has no more characters than bytes, every cell fits its column, and the
columns stand one below the other whatever the names are. The details are the last column and may
be of any length, but they are brought onto one line, so that no line is broken.

> `Fits.shownAt`: a row that fits its columns, cell by cell;
> `exists_shownAt`: a table, taken apart at its line breaks;
> `lists_row_status`: the status of a row names the list of the report that has the target;
> `statusTable_aligned`: the whole table of an accepted configuration.
-/

namespace Provision

/-! ## Rows -/

namespace StatusRow

variable {r : StatusRow} {targets dependencies : Nat}

/-- Whether a line is made up of the cells of a row, at least two spaces between each two, such
that the cells after the first one begin at the given places. -/
def ShownAt (dependencies status detail : Nat) (r : StatusRow) (line : List Char) : Prop :=
  ∃ i j k, 2 ≤ i ∧ 2 ≤ j ∧ 2 ≤ k ∧
    line = r.target.toList ++ List.replicate i ' ' ++ r.dependencies.toList ++
      List.replicate j ' ' ++ r.status.toList ++ List.replicate k ' ' ++ r.detail.toList ∧
    r.target.length + i = dependencies ∧
    dependencies + r.dependencies.length + j = status ∧
    status + r.status.length + k = detail

/-- Whether the cells of a row but the last one fit their columns. -/
structure Fits (targets dependencies : Nat) (r : StatusRow) : Prop where
  target : r.target.length ≤ targets
  dependencies : r.dependencies.length ≤ dependencies
  status : r.status.length ≤ statusWidth

/-- Whether there is no line break in a row. -/
structure Unbroken (r : StatusRow) : Prop where
  target : '\n' ∉ r.target.toList
  dependencies : '\n' ∉ r.dependencies.toList
  status : '\n' ∉ r.status.toList
  detail : '\n' ∉ r.detail.toList

/-- A rendered row as characters: three padded columns, and the detail as it is. -/
theorem toList_render (r : StatusRow) : (r.render targets dependencies).toList =
    r.target.toList ++ List.replicate (targets - r.target.length + 2) ' ' ++
      r.dependencies.toList ++ List.replicate (dependencies - r.dependencies.length + 2) ' ' ++
      r.status.toList ++ List.replicate (statusWidth - r.status.length + 2) ' ' ++
      r.detail.toList := by
  have hgap : "  ".toList = List.replicate 2 ' ' := by decide
  simp only [render, String.toList_append, Text.toList_padded, hgap, List.replicate_add,
    List.append_assoc]

/-- The columns stand where their widths say. -/
theorem Fits.shownAt (h : r.Fits targets dependencies) :
    r.ShownAt (targets + 2) (targets + 2 + dependencies + 2)
      (targets + 2 + dependencies + 2 + statusWidth + 2)
      (r.render targets dependencies).toList := by
  obtain ⟨htarget, hdependencies, hstatus⟩ := h
  -- a cell and what it is filled up with are as wide as the column, since the cell fits
  refine ⟨_, _, _, ?_, ?_, ?_, r.toList_render, ?_, ?_, ?_⟩ <;> omega

/-- A row whose parts hold no line break is one line. -/
theorem Unbroken.render (h : r.Unbroken) : '\n' ∉ (r.render targets dependencies).toList := by
  simp [toList_render, h.target, h.dependencies, h.status, h.detail]

end StatusRow

/-! ## Tables -/

namespace StatusTable

theorem newline_notMem_footer (t : StatusTable) : '\n' ∉ t.footer.toList := by
  have hdigits (n : Nat) : '\n' ∉ Nat.toDigits 10 n := fun h =>
    absurd (Nat.isDigit_of_mem_toDigits (by decide) (by decide) h) (by decide)
  have hfooter : t.footer.toList = Nat.toDigits 10 t.installed ++ " installed, ".toList ++
      Nat.toDigits 10 t.missing ++ " missing, ".toList ++ Nat.toDigits 10 t.errors ++
      " error(s)".toList := by
    simp [footer, toString]
  simp [hfooter, hdigits]

/-- The header fits the columns, because their widths are at least those of its titles. -/
theorem fits_header (t : StatusTable) :
    StatusRow.header.Fits t.targetWidth t.dependencyWidth where
  target := Text.least_le_widest 6 _
  dependencies := Text.least_le_widest 12 _
  status := by decide

/-- A row of the table fits the columns: their widths are the greatest of all rows. -/
theorem fits_row {t : StatusTable} {r : StatusRow} (hr : r ∈ t.rows)
    (hstatus : r.status.length ≤ StatusRow.statusWidth) :
    r.Fits t.targetWidth t.dependencyWidth where
  target := Text.length_le_widest (List.mem_map_of_mem hr)
  dependencies := Text.length_le_widest (List.mem_map_of_mem hr)
  status := hstatus

theorem unbroken_header : StatusRow.header.Unbroken := by
  constructor <;> decide

/-- A table, taken apart at its line breaks. -/
theorem splitOn_render {t : StatusTable} (h : ∀ r ∈ t.rows, r.Unbroken) :
    t.render.toList.splitOn '\n' =
      (StatusRow.header.render t.targetWidth t.dependencyWidth).toList ::
        t.rows.map (fun r => (r.render t.targetWidth t.dependencyWidth).toList) ++
        [[], t.footer.toList, []] := by
  have hlines : ∀ s ∈ t.lines, '\n' ∉ s.toList := by
    intro s hs
    rw [lines, List.mem_append, List.mem_map] at hs
    rcases hs with ⟨r, hr, rfl⟩ | hs
    · rcases List.mem_cons.mp hr with rfl | hr
      · exact unbroken_header.render
      · exact (h r hr).render
    · rcases List.mem_pair.mp hs with rfl | rfl
      · exact List.not_mem_nil
      · exact t.newline_notMem_footer
  rw [render, Text.splitOn_lines hlines, lines]
  simp

/-- **Tables are aligned.** The columns of a table begin at the same places in all of its lines. -/
theorem exists_shownAt {t : StatusTable}
    (h : ∀ r ∈ t.rows, r.Unbroken ∧ r.status.length ≤ StatusRow.statusWidth) :
    ∃ dependencies status detail header rows,
      t.render.toList.splitOn '\n' = header :: rows ++ [[], t.footer.toList, []] ∧
      StatusRow.header.ShownAt dependencies status detail header ∧
      List.Forall₂ (StatusRow.ShownAt dependencies status detail) t.rows rows := by
  refine ⟨_, _, _, _, _, splitOn_render fun r hr => (h r hr).1, t.fits_header.shownAt, ?_⟩
  rw [List.forall₂_map_right_iff, List.forall₂_same]
  exact fun r hr => (fits_row hr (h r hr).2).shownAt

end StatusTable

/-! ## Reports -/

/-- Whether a text names the list of a report that a target is in. -/
structure StatusReport.Lists (r : StatusReport) (target status : String) : Prop where
  installed : status = "INSTALLED" ↔ target ∈ r.installed
  missing : status = "NOT INSTALLED" ↔ target ∈ r.missing
  errors : status = "ERROR" ↔ target ∈ r.errors
  known : status = "INSTALLED" ∨ status = "NOT INSTALLED" ∨ status = "ERROR"

variable {r : StatusReport} {t : String}

/-- The label of every list is a short word. -/
theorem StatusReport.Lists.fits {status : String} (h : r.Lists t status) :
    status.length ≤ StatusRow.statusWidth ∧ '\n' ∉ status.toList := by
  rcases h.known with rfl | rfl | rfl <;> decide

namespace StatusTable

/-- What the row of a target says, by its outcome. -/
theorem row_eq (b : Blueprint) (r : StatusReport) (t : String) : row b r t =
    ⟨t, b.dependencyText t, (r.outcomes.get? t).elim "INSTALLED" fun o => o.status.text,
      (r.outcomes.get? t).elim "" fun o => Text.oneLine o.detail⟩ := by
  rw [row]
  cases r.outcomes.get? t <;> rfl

/-- The status of a row names the list of the report that has the target. -/
theorem lists_row_status {b : Blueprint} {outcome : String → Option Outcome}
    {targets : List String} {runs : List Execution} (htells : r.Tells outcome targets)
    (ht : t ∈ targets) (htold : Told runs (outcome t)) : r.Lists t (row b r t).status := by
  have hinstalled : t ∈ r.installed ↔ outcome t = none := by
    rw [htells.mem_installed_iff, and_iff_right ht]
  have hmissing : t ∈ r.missing ↔ ∃ o, outcome t = some o ∧ o.status ≠ .error := by
    rw [htells.mem_missing_iff, and_iff_right ht]
  have herrors : t ∈ r.errors ↔ ∃ o, outcome t = some o ∧ o.status = .error := by
    rw [htells.mem_errors_iff, and_iff_right ht]
  rw [row_eq, htells.get?_outcomes ht]
  -- the lists and the status depend on the outcome of the check and on nothing else
  generalize outcome t = found at htold hinstalled hmissing herrors
  cases htold with
  | installed =>
    constructor <;> simp [hinstalled, hmissing, herrors]
  | missing status | error status =>
    constructor <;> simp [hinstalled, hmissing, herrors, status, Status.text]

/-- The detail is put on one line before it is shown. -/
theorem newline_notMem_row_detail (b : Blueprint) : '\n' ∉ (row b r t).detail.toList := by
  rw [row_eq]
  cases r.outcomes.get? t with
  | none => exact List.not_mem_nil
  | some o => exact Text.newline_notMem_oneLine o.detail

end StatusTable

/-! ## The table of an accepted configuration -/

section Accepted

variable {σ : Type} {c : Config} {b : Blueprint}

/-- Dependencies are targets, so that their names are on one line if those of all targets are. -/
theorem newline_notMem_dependencyText (h : (Loaded.ofConfig c).result = .ok b)
    (hnames : ∀ t ∈ c.targets.keys, '\n' ∉ t.toList) (t : String) :
    '\n' ∉ (b.dependencyText t).toList := by
  have hdeps : ∀ d ∈ b.dependenciesOf t, '\n' ∉ d.toList := fun d hd =>
    hnames d (declared_of_accepted h ((mem_dependenciesOf_of_accepted h t d).mp hd))
  rw [Blueprint.dependencyText]
  generalize b.dependenciesOf t = deps at hdeps
  cases deps with
  | nil => decide
  | cons d ds =>
    intro hmem
    rcases Text.mem_intercalate hmem with hsep | ⟨d', hd', hmem⟩
    · exact absurd hsep (by decide)
    · exact hdeps d' hd' hmem

/-- **Status tables are aligned.** Where the names of the targets of an accepted configuration are
on one line each, so is everything in the table of a status pass: its lines are a header, a line
for each declared target in the order of installation, an empty line and the counts. The
dependencies, the status and the details begin at the same places in the header and in the line of
every target. The status of a target names the list of the report that has the target, the details
are what its check has said, and the three counts add up to the number of targets. -/
theorem statusTable_aligned (h : (Loaded.ofConfig c).result = .ok b)
    (hnames : ∀ t ∈ c.targets.keys, '\n' ∉ t.toList) (shell : Shell σ) (w : World σ) :
    let r := ((b.status shell).run w).1
    ∃ dependencies status detail header rows footer,
      (StatusTable.ofReport b r).render.toList.splitOn '\n' = header :: rows ++ [[], footer, []] ∧
      StatusRow.header.ShownAt dependencies status detail header ∧
      b.order.Perm c.targets.keys ∧
      List.Forall₂ (fun t line => ∃ label, r.Lists t label ∧
        StatusRow.ShownAt dependencies status detail ⟨t, b.dependencyText t, label,
          (r.outcomes.get? t).elim "" fun o => Text.oneLine o.detail⟩ line) b.order rows ∧
      footer = (s!"{r.installed.length} installed, {r.missing.length} missing, " ++
        s!"{r.errors.length} error(s)").toList ∧
      r.installed.length + r.missing.length + r.errors.length = c.targets.size := by
  intro r
  have htells : r.Tells (fun t => (b.checkIn shell w t).1) b.order :=
    status_tells (order_nodup h) shell w
  have hlists : ∀ t ∈ b.order, r.Lists t (StatusTable.row b r t).status :=
    fun t ht => StatusTable.lists_row_status htells ht (b.check_told shell t _)
  have hrow : ∀ row ∈ (StatusTable.ofReport b r).rows,
      row.Unbroken ∧ row.status.length ≤ StatusRow.statusWidth := by
    intro row hrow
    obtain ⟨t, ht, rfl⟩ := List.mem_map.mp hrow
    exact ⟨⟨hnames t ((mem_order_iff h t).mp ht), newline_notMem_dependencyText h hnames t,
      (hlists t ht).fits.2, StatusTable.newline_notMem_row_detail b⟩, (hlists t ht).fits.1⟩
  obtain ⟨dependencies, status, detail, header, rows, hsplit, hheader, hrows⟩ :=
    StatusTable.exists_shownAt hrow
  refine ⟨dependencies, status, detail, header, rows, _, hsplit, hheader, order_perm_targets h,
    ?_, ?_, ?_⟩
  · have hlines := (List.forall₂_and_left _ _).mpr ⟨hlists, List.forall₂_map_left_iff.mp hrows⟩
    refine hlines.imp fun t line hline => ?_
    rw [StatusTable.row_eq] at hline
    exact ⟨_, hline⟩
  · simp [StatusTable.footer, StatusTable.ofReport]
  · have hlength := (htells.perm.trans (order_perm_targets h)).length_eq
    rw [List.length_append, List.length_append] at hlength
    rw [hlength, Registry.size_eq_length_keys]

end Accepted

/-- Two targets whose names have more bytes than characters. -/
def Config.multibyte : Config where
  version := "1.0"
  name := "multibyte"
  targets :=
    ⟨[("größe", { dependsOn := ["日本"], recipe := [.command "make größe"] }),
      ("日本", { recipe := [.command "make 日本"] })], by decide⟩

/-- A shell whose commands say something on several lines: one command exits with 1, all others
fail. -/
def Shell.verbose (missing : String) : Shell Nat := fun _ command n =>
  (.ok ⟨if command = missing then 1 else 2, "not\n yet\n", "\n \n"⟩, n + 1)

/-- A table with a name of several bytes per character, whose columns still line up. -/
theorem statusTable_aligned_multibyte :
    ((Loaded.ofConfig .multibyte).result = .ok (.ofConfig .multibyte) ∧
      ∀ t ∈ Config.multibyte.targets.keys, '\n' ∉ t.toList) ∧
    let r := (((Blueprint.ofConfig .multibyte).status (.verbose "make größe")).run ⟨0, []⟩).1
    ∃ dependencies status detail header rows footer,
      (StatusTable.ofReport (.ofConfig .multibyte) r).render.toList.splitOn '\n' =
        header :: rows ++ [[], footer, []] ∧
      StatusRow.header.ShownAt dependencies status detail header ∧
      rows.length = 2 ∧ r.installed.length + r.missing.length + r.errors.length = 2 := by
  have haccepted : (Loaded.ofConfig .multibyte).result = .ok (.ofConfig .multibyte) :=
    (Loaded.ofConfig_eq_ok_iff _ _).mpr ⟨rfl, by decide⟩
  have hnames : ∀ t ∈ Config.multibyte.targets.keys, '\n' ∉ t.toList := by decide
  obtain ⟨dependencies, status, detail, header, rows, footer, hsplit, hheader, horder, hrows, -,
    hcounts⟩ := statusTable_aligned haccepted hnames (.verbose "make größe") ⟨0, []⟩
  refine ⟨⟨haccepted, hnames⟩, dependencies, status, detail, header, rows, footer, hsplit,
    hheader, ?_, hcounts⟩
  rw [← hrows.length_eq, horder.length_eq]
  rfl

example : (StatusTable.ofReport (.ofConfig .multibyte)
    (((Blueprint.ofConfig .multibyte).status (.verbose "make größe")).run ⟨0, []⟩).1).render =
    "target   dependencies  status         details\n" ++
    "日本       -             ERROR          \n" ++
    "größe    日本            NOT INSTALLED  not yet\n" ++
    "\n" ++
    "0 installed, 1 missing, 1 error(s)\n" := by
  decide +kernel

end Provision
