import Provision.Config.Read
import Provision.Config.Write
import Provision.Proofs.Yaml.Outline

/-!
# Which configurations can be written, and read again

Everything but a value can be written. A value cannot if the only entry of a mapping in it would be
taken for a tagged value; and a tag that has been written may be one that is not read again.

> `Config.write_eq_error_iff`: a configuration cannot be written exactly if a default or an argument
> cannot;
> `Config.write_unreadable`: an accepted text that is written as one that is not.
-/

namespace Provision

open Yaml (Value Outline WriteError)
open Yaml.Outline (Stuck ofValue ofValueIn_eq_error_iff bind_eq_error_iff_or)

variable {e : WriteError} {v : Value}

/-! ## Where values stand -/

/-- Whether a value is one of some arguments. -/
def Arguments.Holds (v : Value) : Arguments → Prop
  | .positional values => v ∈ values
  | .named values => v ∈ values.values

/-- Whether a value is an argument of an executable. -/
def Executable.Holds (v : Value) : Executable → Prop
  | .command _ => False
  | .invocation i => i.arguments.Holds v

/-- Whether a value is a default of a recipe or an argument in it. -/
def RecipeDeclaration.Holds (v : Value) (r : RecipeDeclaration) : Prop :=
  v ∈ r.defaults.values ∨ ∃ x ∈ r.setup, x.Holds v

/-- Whether a value is an argument in a target. -/
def TargetDeclaration.Holds (v : Value) (t : TargetDeclaration) : Prop :=
  ∃ x ∈ t.setup ++ t.recipe ++ t.check.toList, x.Holds v

/-- Whether a value is a default or an argument in a configuration. -/
def Config.Holds (v : Value) (c : Config) : Prop :=
  (∃ r ∈ c.recipes.values, r.Holds v) ∨ ∃ t ∈ c.targets.values, t.Holds v

/-! ## What cannot be written -/

/-- A list of outlines fails as one of its parts does. All encoding errors are alike, so it does
not matter which part comes first. -/
theorem mapM_eq_error_iff_exists {α β : Type} {f : α → Except WriteError β} :
    ∀ {l : List α}, l.mapM f = .error e ↔ ∃ a ∈ l, f a = .error e := by
  intro l
  induction l with
  | nil => simp [pure, Except.pure]
  | cons a l ih =>
    rw [List.mapM_cons, List.exists_mem_cons_iff, ← ih]
    exact bind_eq_error_iff_or fun _ => bind_pure_eq_error_iff

/-- A registry cannot be written when one of its values cannot. -/
theorem Registry.outline_eq_error_iff {α : Type} {r : Registry α}
    {f : α → Except WriteError Outline} :
    r.outline f = .error e ↔ ∃ x ∈ r.values, f x = .error e := by
  rw [Registry.outline, bind_pure_eq_error_iff, mapM_eq_error_iff_exists, Registry.values]
  simp only [map_eq_error_iff, List.mem_map]
  grind

theorem ofValue_eq_error_iff : ofValue v = .error e ↔ Stuck true v :=
  ofValueIn_eq_error_iff e true v

/-- Arguments cannot be written when one of the values they hold is stuck. -/
theorem Arguments.outline_eq_error_iff {a : Arguments} :
    a.outline = .error e ↔ ∃ v, a.Holds v ∧ Stuck true v := by
  cases a with
  | positional values =>
    rw [Arguments.outline, bind_pure_eq_error_iff, mapM_eq_error_iff_exists]
    simp only [ofValue_eq_error_iff]
    rfl
  | named values =>
    rw [Arguments.outline, Registry.outline_eq_error_iff]
    simp only [ofValue_eq_error_iff]
    rfl

/-- A command can always be written; an invocation depends on its arguments. -/
theorem Executable.outline_eq_error_iff {x : Executable} :
    x.outline = .error e ↔ ∃ v, x.Holds v ∧ Stuck true v := by
  cases x with
  | command s => simp [Executable.outline, Executable.Holds, pure, Except.pure]
  | invocation i =>
    rw [Executable.outline, bind_pure_eq_error_iff]
    exact Arguments.outline_eq_error_iff

theorem Executable.listOutline_eq_error_iff {l : List Executable} :
    listOutline l = .error e ↔ ∃ v, (∃ x ∈ l, x.Holds v) ∧ Stuck true v := by
  rw [Executable.listOutline, bind_pure_eq_error_iff, mapM_eq_error_iff_exists]
  simp only [Executable.outline_eq_error_iff]
  grind

/-- A recipe depends on its defaults and on the steps of its setup. -/
theorem RecipeDeclaration.outline_eq_error_iff {r : RecipeDeclaration} :
    r.outline = .error e ↔ ∃ v, r.Holds v ∧ Stuck true v := by
  have hsteps : r.outline = .error e ↔
      r.defaults.outline ofValue = .error e ∨ Executable.listOutline r.setup = .error e :=
    bind_eq_error_iff_or fun _ => bind_pure_eq_error_iff
  rw [hsteps, Registry.outline_eq_error_iff, Executable.listOutline_eq_error_iff]
  simp only [ofValue_eq_error_iff, RecipeDeclaration.Holds]
  grind

/-- A target depends on the steps of its setup and of its recipe. -/
theorem TargetDeclaration.outline_eq_error_iff {t : TargetDeclaration} :
    t.outline = .error e ↔ ∃ v, t.Holds v ∧ Stuck true v := by
  have hsteps : t.outline = .error e ↔ Executable.listOutline t.setup = .error e ∨
      Executable.listOutline t.recipe = .error e ∨
      ∃ v, (∃ x ∈ t.check.toList, x.Holds v) ∧ Stuck true v := by
    refine bind_eq_error_iff_or fun _ => bind_eq_error_iff_or fun _ => ?_
    cases t.check with
    | none => simp [pure, Except.pure, bind, Except.bind]
    | some x => exact bind_pure_eq_error_iff.trans (by simp [Executable.outline_eq_error_iff])
  rw [hsteps, Executable.listOutline_eq_error_iff, Executable.listOutline_eq_error_iff]
  simp only [TargetDeclaration.Holds, List.mem_append]
  grind

namespace Config

/-- **A configuration can be written unless a default or an argument cannot.** -/
theorem write_eq_error_iff {c : Config} :
    c.write = .error e ↔ ∃ v, c.Holds v ∧ Stuck true v := by
  have hsteps : c.outline = .error e ↔ c.recipes.outline RecipeDeclaration.outline = .error e ∨
      c.targets.outline TargetDeclaration.outline = .error e :=
    bind_eq_error_iff_or fun _ => bind_pure_eq_error_iff
  rw [write, map_eq_error_iff, hsteps, Registry.outline_eq_error_iff,
    Registry.outline_eq_error_iff]
  simp only [RecipeDeclaration.outline_eq_error_iff, TargetDeclaration.outline_eq_error_iff,
    Config.Holds]
  grind

/-! ## A tag that is not read again -/

/-- A text in which a default has a tag with a comma. -/
def textWithComma : String :=
  "version: 1\nname: t\nrecipes:\n  r:\n    defaults:\n      p: !<!a,b> c\n"

/-- The configuration that it declares. -/
def withComma : Config where
  version := "1"
  name := "t"
  recipes :=
    ⟨[("r", { defaults := ⟨[("p", .tagged "a,b" (.string "c"))], by decide⟩ })], by decide⟩

/-- The configuration as it is written: the comma would have to be escaped outside of brackets. -/
def writtenWithComma : String :=
  "version: '1'\nname: t\ndescription: null\nshell: sh\nrecipes:\n  r:\n    description: null\n" ++
  "    params: []\n    defaults:\n      p: !a,b c\n    check: null\n    setup: []\ntargets: \x7b\x7d\n"

/-- **An accepted text may be written as one that is not accepted.** -/
theorem write_unreadable :
    parse textWithComma = .ok withComma ∧ withComma.write = .ok writtenWithComma ∧
      ∀ c, parse writtenWithComma ≠ .ok c := by
  have hparse : (parse textWithComma).toOption = some withComma := by decide +kernel
  have hwrite : withComma.write.toOption = some writtenWithComma := by decide +kernel
  have hrefused : (parse writtenWithComma).toOption = none := by decide +kernel
  refine ⟨eq_ok_of_toOption_eq_some hparse, eq_ok_of_toOption_eq_some hwrite, fun c hc => ?_⟩
  rw [hc] at hrefused
  exact nomatch hrefused

end Config

end Provision
