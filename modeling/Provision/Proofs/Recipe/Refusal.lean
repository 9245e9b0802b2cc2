import Provision.Recipe.Expansion
import Provision.Proofs.Result

/-!
# What arguments and templates are refused for

Binding arguments and putting values into templates fail for few reasons: there are too many
arguments, one of them has no parameter, a parameter has none, or a placeholder is no parameter.
Names of recipes, missing checks and the nesting of recipes do not come in here.

> `bind_refused`, `substituteArguments_refused`: both fail for these reasons only;
> `checkCommand_refused`: so does a check, where there is one.
-/

namespace Provision

/-- The errors about the arguments of a recipe or about a placeholder in one of its templates. -/
inductive RecipeError.OfArguments : RecipeError → Prop
  | tooMany (recipe : String) (expected got : Nat) :
      OfArguments (.tooManyArguments recipe expected got)
  | unexpected (recipe argument : String) : OfArguments (.unexpectedArgument recipe argument)
  | missing (recipe param : String) : OfArguments (.missingArgument recipe param)
  | placeholder (recipe name : String) : OfArguments (.unknownParameter recipe name)

namespace Recipe

variable {r : Recipe} {e : RecipeError}

/-- Supplying arguments fails with an error on arguments only. -/
theorem supplied_refused {a : Arguments} (h : r.supplied a = .error e) : e.OfArguments := by
  cases a with
  | positional values =>
    rw [supplied] at h
    split at h
    · obtain rfl := Except.error.inj h
      exact .tooMany _ _ _
    · simp at h
  | named values =>
    rw [supplied] at h
    split at h
    · obtain rfl := Except.error.inj h
      exact .unexpected _ _
    · simp at h

/-- Filling in the parameters fails with an error on arguments only. -/
theorem fill_refused : ∀ {params : List String} {given : Registry String} {b : Bindings},
    r.fill params given b = .error e → e.OfArguments := by
  intro params
  induction params with
  | nil => intro given b h; simp [fill] at h
  | cons p params ih =>
    intro given b h
    rw [fill] at h
    split at h
    · exact ih h
    · split at h
      · exact ih h
      · obtain rfl := Except.error.inj h
        exact .missing _ _

/-- Binding arguments fails with an error on arguments only. -/
theorem bind_refused {a : Arguments} (h : r.bind a = .error e) : e.OfArguments := by
  rcases bind_eq_error_iff.mp h with h | ⟨given, -, h⟩
  · exact supplied_refused h
  · exact fill_refused h

/-- Substituting into a template fails with an error on arguments only. -/
theorem substitute_refused {template : String} {b : Bindings}
    (h : substitute r.name template b = .error e) : e.OfArguments := by
  obtain ⟨name, -, rfl⟩ := mapError_eq_error_iff.mp h
  exact .placeholder _ _

/-- Substituting into a value fails with an error on arguments only. -/
theorem substituteValue_refused {b : Bindings} {v : Yaml.Value}
    (h : r.substituteValue b v = .error e) : e.OfArguments := by
  cases v with
  | string s => exact substitute_refused (map_eq_error_iff.mp h)
  | _ => simp [substituteValue] at h

/-- Substituting into named values fails with an error on arguments only. -/
theorem substituteEntries_refused {b : Bindings} {entries : List (String × Yaml.Value)}
    (h : r.substituteEntries b entries = .error e) : e.OfArguments := by
  induction entries with
  | nil => simp [substituteEntries] at h
  | cons entry rest ih =>
    rw [substituteEntries] at h
    rcases bind_eq_error_iff.mp h with h | ⟨v, -, h⟩
    · exact substituteValue_refused h
    · rcases bind_eq_error_iff.mp h with h | ⟨_, -, h⟩
      · exact ih h
      · simp [pure, Except.pure] at h

/-- Substituting into arguments fails with an error on arguments only. -/
theorem substituteArguments_refused {b : Bindings} {a : Arguments}
    (h : r.substituteArguments b a = .error e) : e.OfArguments := by
  cases a with
  | positional values =>
    obtain ⟨v, -, hv⟩ := exists_of_mapM_eq_error (map_eq_error_iff.mp h)
    exact substituteValue_refused hv
  | named values =>
    rcases bind_eq_error_iff.mp h with h | ⟨_, -, h⟩
    · exact substituteEntries_refused h
    · simp [pure, Except.pure] at h

/-- The check command of a recipe that has one fails with an error on arguments only. -/
theorem checkCommand_refused {a : Arguments} (hcheck : r.check ≠ none)
    (h : r.checkCommand a = .error e) : e.OfArguments := by
  rw [checkCommand] at h
  split at h
  next hnone => exact absurd hnone hcheck
  next template _ =>
    rcases bind_eq_error_iff.mp h with h | ⟨b, -, h⟩
    · exact bind_refused h
    · exact substitute_refused h

end Recipe

end Provision
