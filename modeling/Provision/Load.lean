import Provision.Config.Read
import Provision.Validation
import Provision.Files

/-!
# Loading

From a text or a file to a valid blueprint, with what the log tells about it.

> `ofText`: a blueprint is handed out only if its text decodes and nothing is violated.

Mirrors `from_source`, `load` and `build`. What the program logs on the way is part of the
result.
-/

namespace Provision

/-- Why there is no valid blueprint. -/
inductive LoadError
  | file (path : String) (e : ReadError)
  | yaml (e : Yaml.Error)
  | invalid (violations : List Violation)

/-- The wording of a failure to decode a configuration. -/
def yamlMessage (e : Yaml.Error) : String := "YAML parse error: " ++ e.message

/-- The wording of the reason. -/
def LoadError.message : LoadError → String
  | file path e => s!"failed to read {path}: {e.message}"
  | yaml e => yamlMessage e
  | invalid vs => Violation.report vs

/-- A result together with what the log tells about it. -/
structure Loaded where
  journal : List Log.Entry
  result : Except LoadError Blueprint

namespace Loaded

/-- Validates the blueprint of a configuration. -/
def ofConfig (c : Config) : Loaded :=
  let b := Blueprint.ofConfig c
  match b.violations with
  | [] => ⟨b.journal ++ [b.validEntry], .ok b⟩
  | vs => ⟨b.journal, .error (.invalid vs)⟩

/-- Loads a configuration from a text. -/
def ofText (text : String) : Loaded :=
  match Config.parse text with
  | .ok c => ofConfig c
  | .error e => ⟨[], .error (.yaml e)⟩

/-- Loads a configuration from a file. -/
def ofFile (files : Files) (path : String) : Loaded :=
  match files.readText path with
  | .error e => ⟨[], .error (.file path e)⟩
  | .ok text =>
    let entry : Log.Entry := ⟨.debug, .parser, s!"read {path} ({text.utf8ByteSize} bytes)"⟩
    let l := ofText text
    ⟨entry :: l.journal, l.result⟩

/-- What loads has passed validation. -/
theorem ofText_isValid {text : String} {b : Blueprint} (h : (ofText text).result = .ok b) :
    b.violations = [] := by
  unfold ofText at h
  split at h
  · unfold ofConfig at h
    simp only at h
    split at h
    · next hv =>
      simp only [Except.ok.injEq] at h
      rw [← h]; exact hv
    · simp at h
  · simp at h

end Loaded

end Provision
