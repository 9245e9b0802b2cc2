import Provision.Proofs.Recipe.Refusal

/-!
# Expansion with and without a limit

Without any limit, a derivation says what the steps of a recipe come to: the commands of its
templates and, in their places, the derived commands of the recipes that it invokes. A
derivation nests recipes inside one another some levels deep. Expansion with a limit succeeds
exactly where there is a derivation that does not nest deeper, with its commands; and where it
fails, it fails for the first thing that goes wrong when the steps are walked depth first.

> `expand_eq_ok_iff`: expansion succeeds exactly by the derivations within the limit;
> `expand_eq_error_iff`: it fails exactly for the first failure of a walk.
-/

namespace Provision.Recipe

variable {index : RecipeIndex}

/-! ## Steps -/

/-- The commands of one step of a recipe, where `levels` recipes may be nested below it. -/
def expandStep (index : RecipeIndex) (levels : Nat) (r : Recipe) (b : Bindings) :
    Executable → Except RecipeError (List String)
  | .command template => (substitute r.name template b).map ([·])
  | .invocation i => do
    let inner ← lookup index i.recipe
    let a ← r.substituteArguments b i.arguments
    let b' ← inner.bind a
    expand index levels inner b'

/-- The commands of steps of a recipe, one after another. -/
def expandSteps (index : RecipeIndex) (levels : Nat) (r : Recipe) (b : Bindings)
    (steps : List Executable) : Except RecipeError (List String) :=
  (steps.mapM (expandStep index levels r b)).map List.flatten

theorem expand_succ (levels : Nat) (r : Recipe) (b : Bindings) :
    expand index (levels + 1) r b = expandSteps index levels r b r.setup := rfl

theorem expandSteps_nil (levels : Nat) (r : Recipe) (b : Bindings) :
    expandSteps index levels r b [] = .ok [] := rfl

/-- A list of steps expands to the commands of its first step and then those of the others. -/
theorem expandSteps_cons_eq_ok_iff {levels : Nat} {r : Recipe} {b : Bindings} {step : Executable}
    {steps : List Executable} {commands : List String} :
    expandSteps index levels r b (step :: steps) = .ok commands ↔
      ∃ first others, expandStep index levels r b step = .ok first ∧
        expandSteps index levels r b steps = .ok others ∧ commands = first ++ others := by
  simp only [expandSteps, map_eq_ok_iff, mapM_cons_eq_ok_iff]
  constructor
  · rintro ⟨_, ⟨first, rest, hfirst, hrest, rfl⟩, rfl⟩
    exact ⟨first, rest.flatten, hfirst, ⟨rest, hrest, rfl⟩, rfl⟩
  · rintro ⟨first, _, hfirst, ⟨rest, hrest, rfl⟩, rfl⟩
    exact ⟨first :: rest, ⟨first, rest, hfirst, hrest, rfl⟩, rfl⟩

/-- A list of steps fails in its first step, or later when the first step expands. -/
theorem expandSteps_cons_eq_error_iff {levels : Nat} {r : Recipe} {b : Bindings}
    {step : Executable} {steps : List Executable} {e : RecipeError} :
    expandSteps index levels r b (step :: steps) = .error e ↔
      expandStep index levels r b step = .error e ∨
      (∃ first, expandStep index levels r b step = .ok first) ∧
        expandSteps index levels r b steps = .error e := by
  simp only [expandSteps, map_eq_error_iff, mapM_cons_eq_error_iff, exists_and_right]

/-- A recipe is found under its name. -/
theorem lookup_eq_ok_iff {name : String} {r : Recipe} :
    lookup index name = .ok r ↔ index.get? name = some r := by
  rw [lookup]
  cases index.get? name <;> simp

/-- A recipe that is not found is named in the error. -/
theorem lookup_eq_error_iff {name : String} {e : RecipeError} :
    lookup index name = .error e ↔ index.get? name = none ∧ e = .unknownRecipe name := by
  rw [lookup]
  cases index.get? name <;> simp [eq_comm]

/-- An invocation opens a recipe with values for its parameters: its name is declared, the values
of the outer recipe go into the arguments, and these bind. -/
inductive Opens (index : RecipeIndex) (r : Recipe) (b : Bindings) (i : Invocation)
    (inner : Recipe) (b' : Bindings) : Prop
  | intro {a : Arguments} (known : index.get? i.recipe = some inner)
      (filled : r.substituteArguments b i.arguments = .ok a) (bound : inner.bind a = .ok b')

/-- What a step is refused for by itself. An invocation needs a declared recipe first, then its
arguments, then their binding. -/
inductive Refuses (index : RecipeIndex) (r : Recipe) (b : Bindings) :
    Executable → RecipeError → Prop
  | template {template : String} {e : RecipeError}
      (refused : substitute r.name template b = .error e) : Refuses index r b (.command template) e
  | unknown {i : Invocation} (unknown : index.get? i.recipe = none) :
      Refuses index r b (.invocation i) (.unknownRecipe i.recipe)
  | arguments {i : Invocation} {inner : Recipe} {e : RecipeError}
      (known : index.get? i.recipe = some inner)
      (refused : r.substituteArguments b i.arguments = .error e) :
      Refuses index r b (.invocation i) e
  | binding {i : Invocation} {inner : Recipe} {a : Arguments} {e : RecipeError}
      (known : index.get? i.recipe = some inner)
      (filled : r.substituteArguments b i.arguments = .ok a)
      (refused : inner.bind a = .error e) : Refuses index r b (.invocation i) e

/-- A command expands to its template with the parameters put in. -/
theorem expandStep_command_eq_ok_iff {levels : Nat} {r : Recipe} {b : Bindings}
    {template : String} {commands : List String} :
    expandStep index levels r b (.command template) = .ok commands ↔
      ∃ text, substitute r.name template b = .ok text ∧ commands = [text] := by
  rw [expandStep, map_eq_ok_iff]
  simp only [eq_comm]

/-- A command fails when its template refers to a parameter without a value. -/
theorem expandStep_command_eq_error_iff {levels : Nat} {r : Recipe} {b : Bindings}
    {template : String} {e : RecipeError} :
    expandStep index levels r b (.command template) = .error e ↔
      Refuses index r b (.command template) e := by
  rw [expandStep, map_eq_error_iff]
  exact ⟨.template, fun | .template refused => refused⟩

/-- An invocation expands to the commands of the recipe it opens, one level deeper. -/
theorem expandStep_invocation_eq_ok_iff {levels : Nat} {r : Recipe} {b : Bindings}
    {i : Invocation} {commands : List String} :
    expandStep index levels r b (.invocation i) = .ok commands ↔
      ∃ inner b', Opens index r b i inner b' ∧ expand index levels inner b' = .ok commands := by
  simp only [expandStep, bind_eq_ok_iff, lookup_eq_ok_iff]
  constructor
  · rintro ⟨inner, known, a, filled, b', bound, hcommands⟩
    exact ⟨inner, b', ⟨known, filled, bound⟩, hcommands⟩
  · rintro ⟨inner, b', ⟨known, filled, bound⟩, hcommands⟩
    exact ⟨inner, known, _, filled, b', bound, hcommands⟩

/-- An invocation fails by itself, or in the recipe that it opens. -/
theorem expandStep_invocation_eq_error_iff {levels : Nat} {r : Recipe} {b : Bindings}
    {i : Invocation} {e : RecipeError} :
    expandStep index levels r b (.invocation i) = .error e ↔
      Refuses index r b (.invocation i) e ∨
      ∃ inner b', Opens index r b i inner b' ∧ expand index levels inner b' = .error e := by
  simp only [expandStep, bind_eq_error_iff, lookup_eq_ok_iff, lookup_eq_error_iff]
  constructor
  · rintro (⟨hnone, rfl⟩ | ⟨inner, known, refused | ⟨a, filled, refused | ⟨b', bound, he⟩⟩⟩)
    · exact Or.inl (.unknown hnone)
    · exact Or.inl (.arguments known refused)
    · exact Or.inl (.binding known filled refused)
    · exact Or.inr ⟨inner, b', ⟨known, filled, bound⟩, he⟩
  · rintro (hrefuses | ⟨inner, b', ⟨known, filled, bound⟩, he⟩)
    · cases hrefuses with
      | unknown hnone => exact Or.inl ⟨hnone, rfl⟩
      | arguments known refused => exact Or.inr ⟨_, known, Or.inl refused⟩
      | binding known filled refused =>
        exact Or.inr ⟨_, known, Or.inr ⟨_, filled, Or.inl refused⟩⟩
    · exact Or.inr ⟨inner, known, Or.inr ⟨_, filled, Or.inr ⟨b', bound, he⟩⟩⟩

/-! ## Derivations -/

/-- A derivation of the commands of steps, without a limit: each template with the values put in,
each invocation as the derived commands of the recipe that it opens. -/
inductive Expansion (index : RecipeIndex) :
    Recipe → Bindings → List Executable → List String → Type
  | done {r : Recipe} {b : Bindings} : Expansion index r b [] []
  | command {r : Recipe} {b : Bindings} {template text : String} {steps : List Executable}
      {commands : List String} (written : substitute r.name template b = .ok text)
      (after : Expansion index r b steps commands) :
      Expansion index r b (.command template :: steps) (text :: commands)
  | invocation {r : Recipe} {b : Bindings} {i : Invocation} {inner : Recipe} {b' : Bindings}
      {steps : List Executable} {inside commands : List String}
      (opens : Opens index r b i inner b')
      (body : Expansion index inner b' inner.setup inside)
      (after : Expansion index r b steps commands) :
      Expansion index r b (.invocation i :: steps) (inside ++ commands)

namespace Expansion

/-- How many recipes are nested inside one another, the outermost included. -/
def nesting {r : Recipe} {b : Bindings} {steps : List Executable} {commands : List String} :
    Expansion index r b steps commands → Nat
  | done => 1
  | command _ after => after.nesting
  | invocation _ body after => max (body.nesting + 1) after.nesting

/-- Every expansion nests at least one recipe. -/
theorem nesting_pos {r : Recipe} {b : Bindings} {steps : List Executable}
    {commands : List String} (d : Expansion index r b steps commands) : 0 < d.nesting := by
  induction d with
  | done => exact Nat.one_pos
  | command _ _ ih => exact ih
  | invocation _ _ _ _ ih => exact Nat.lt_of_lt_of_le ih (Nat.le_max_right _ _)

end Expansion

/-- Steps expand by the derivations within the limit, if the recipes below them do. -/
theorem expandSteps_eq_ok_iff {levels : Nat}
    (below : ∀ r b commands, expand index levels r b = .ok commands ↔
      ∃ d : Expansion index r b r.setup commands, d.nesting ≤ levels) (r : Recipe) (b : Bindings) :
    ∀ (steps : List Executable) (commands : List String),
      expandSteps index levels r b steps = .ok commands ↔
        ∃ d : Expansion index r b steps commands, d.nesting ≤ levels + 1 := by
  intro steps
  induction steps with
  | nil =>
    intro commands
    rw [expandSteps_nil]
    constructor
    · intro h
      obtain rfl := Except.ok.inj h
      exact ⟨.done, Nat.le_add_left _ _⟩
    · rintro ⟨d, -⟩
      cases d
      rfl
  | cons step steps ih =>
    intro commands
    rw [expandSteps_cons_eq_ok_iff]
    constructor
    · rintro ⟨first, others, hfirst, hothers, rfl⟩
      obtain ⟨after, hafter⟩ := (ih others).mp hothers
      cases step with
      | command template =>
        obtain ⟨text, written, rfl⟩ := expandStep_command_eq_ok_iff.mp hfirst
        exact ⟨.command written after, hafter⟩
      | invocation i =>
        obtain ⟨inner, b', opens, hbody⟩ := expandStep_invocation_eq_ok_iff.mp hfirst
        obtain ⟨body, hbody⟩ := (below inner b' first).mp hbody
        exact ⟨.invocation opens body after, Nat.max_le.mpr ⟨Nat.succ_le_succ hbody, hafter⟩⟩
    · rintro ⟨d, hd⟩
      cases d with
      | command written after =>
        exact ⟨[_], _, expandStep_command_eq_ok_iff.mpr ⟨_, written, rfl⟩,
          (ih _).mpr ⟨after, hd⟩, rfl⟩
      | invocation opens body after =>
        obtain ⟨hbody, hafter⟩ := Nat.max_le.mp hd
        refine ⟨_, _, expandStep_invocation_eq_ok_iff.mpr ⟨_, _, opens, ?_⟩,
          (ih _).mpr ⟨after, hafter⟩, rfl⟩
        exact (below _ _ _).mpr ⟨body, Nat.le_of_succ_le_succ hbody⟩

/-- **Expansion succeeds exactly by the derivations within the limit.** -/
theorem expand_eq_ok_iff : ∀ (levels : Nat) (r : Recipe) (b : Bindings) (commands : List String),
    expand index levels r b = .ok commands ↔
      ∃ d : Expansion index r b r.setup commands, d.nesting ≤ levels := by
  intro levels
  induction levels with
  | zero =>
    -- no recipe may be entered, and every derivation enters one
    intro r b commands
    constructor
    · intro h
      simp [expand] at h
    · rintro ⟨d, hd⟩
      have := d.nesting_pos
      omega
  | succ levels ih =>
    intro r b commands
    rw [expand_succ]
    exact expandSteps_eq_ok_iff ih r b r.setup commands

/-! ## The first failure -/

/-- What stops a walk: a step that is refused, or a recipe that may not be entered any more. -/
inductive Failure
  | refused (e : RecipeError)
  | entering (level : Nat) (r : Recipe)

/-- The error that is told of a failure. -/
def Failure.error : Failure → RecipeError
  | refused e => e
  | entering _ r => .tooDeep r.name maxDepth

/-- The first thing that goes wrong when the steps of a recipe at some level of nesting are walked
depth first and in order. Recipes below the limit may not be entered. -/
inductive FirstFailure (index : RecipeIndex) (limit : Nat) :
    Nat → Recipe → Bindings → List Executable → Failure → Prop
  | refused {level : Nat} {r : Recipe} {b : Bindings} {step : Executable}
      {steps : List Executable} {e : RecipeError} (refuses : Refuses index r b step e) :
      FirstFailure index limit level r b (step :: steps) (.refused e)
  | entering {level : Nat} {r : Recipe} {b : Bindings} {i : Invocation} {inner : Recipe}
      {b' : Bindings} {steps : List Executable} (opens : Opens index r b i inner b')
      (deep : limit < level + 1) :
      FirstFailure index limit level r b (.invocation i :: steps) (.entering (level + 1) inner)
  | inside {level : Nat} {r : Recipe} {b : Bindings} {i : Invocation} {inner : Recipe}
      {b' : Bindings} {steps : List Executable} {f : Failure} (opens : Opens index r b i inner b')
      (fits : level + 1 ≤ limit)
      (body : FirstFailure index limit (level + 1) inner b' inner.setup f) :
      FirstFailure index limit level r b (.invocation i :: steps) f
  | afterCommand {level : Nat} {r : Recipe} {b : Bindings} {template text : String}
      {steps : List Executable} {f : Failure} (written : substitute r.name template b = .ok text)
      (after : FirstFailure index limit level r b steps f) :
      FirstFailure index limit level r b (.command template :: steps) f
  | afterInvocation {level : Nat} {r : Recipe} {b : Bindings} {i : Invocation} {inner : Recipe}
      {b' : Bindings} {inside : List String} {steps : List Executable} {f : Failure}
      (opens : Opens index r b i inner b') (body : Expansion index inner b' inner.setup inside)
      (fits : level + body.nesting ≤ limit) (after : FirstFailure index limit level r b steps f) :
      FirstFailure index limit level r b (.invocation i :: steps) f

/-- The steps of a recipe fail for the first failure of a walk, if the recipes below them do. A
recipe below them is either not entered, or walked one level deeper. -/
theorem expandSteps_eq_error_iff {limit levels level : Nat} (hlevel : level + levels = limit)
    (below : ∀ r b e, expand index levels r b = .error e ↔
      levels = 0 ∧ (Failure.entering (level + 1) r).error = e ∨
      0 < levels ∧ ∃ f, FirstFailure index limit (level + 1) r b r.setup f ∧ f.error = e)
    (r : Recipe) (b : Bindings) (e : RecipeError) :
    ∀ steps : List Executable, expandSteps index levels r b steps = .error e ↔
      ∃ f, FirstFailure index limit level r b steps f ∧ f.error = e := by
  intro steps
  induction steps with
  | nil =>
    rw [expandSteps_nil]
    constructor
    · intro h
      simp at h
    · rintro ⟨f, hf, -⟩
      cases hf
  | cons step steps ih =>
    rw [expandSteps_cons_eq_error_iff, ih]
    constructor
    · rintro (hstep | ⟨⟨first, hfirst⟩, f, hf, rfl⟩)
      · -- the first step fails
        cases step with
        | command template =>
          exact ⟨.refused e, .refused (expandStep_command_eq_error_iff.mp hstep), rfl⟩
        | invocation i =>
          rcases expandStep_invocation_eq_error_iff.mp hstep with
            refuses | ⟨inner, b', opens, hbody⟩
          · exact ⟨.refused e, .refused refuses, rfl⟩
          · rcases (below inner b' e).mp hbody with ⟨hzero, he⟩ | ⟨hpos, f, hf, he⟩
            · exact ⟨.entering (level + 1) inner, .entering opens (by omega), he⟩
            · exact ⟨f, .inside opens (by omega) hf, he⟩
      · -- the first step passes
        cases step with
        | command template =>
          obtain ⟨text, written, -⟩ := expandStep_command_eq_ok_iff.mp hfirst
          exact ⟨f, .afterCommand written hf, rfl⟩
        | invocation i =>
          obtain ⟨inner, b', opens, hbody⟩ := expandStep_invocation_eq_ok_iff.mp hfirst
          obtain ⟨body, hnesting⟩ := (expand_eq_ok_iff levels inner b' first).mp hbody
          exact ⟨f, .afterInvocation opens body (by omega) hf, rfl⟩
    · rintro ⟨f, hf, rfl⟩
      cases hf with
      | refused refuses =>
        left
        cases step with
        | command template => exact expandStep_command_eq_error_iff.mpr refuses
        | invocation i => exact expandStep_invocation_eq_error_iff.mpr (Or.inl refuses)
      | entering opens deep =>
        left
        refine expandStep_invocation_eq_error_iff.mpr (Or.inr ⟨_, _, opens, ?_⟩)
        exact (below _ _ _).mpr (Or.inl ⟨by omega, rfl⟩)
      | inside opens fits body =>
        left
        refine expandStep_invocation_eq_error_iff.mpr (Or.inr ⟨_, _, opens, ?_⟩)
        exact (below _ _ _).mpr (Or.inr ⟨by omega, f, body, rfl⟩)
      | afterCommand written after =>
        right
        exact ⟨⟨_, expandStep_command_eq_ok_iff.mpr ⟨_, written, rfl⟩⟩, f, after, rfl⟩
      | @afterInvocation _ _ _ i inner b' inside _ _ opens body fits after =>
        have hbody : expand index levels inner b' = .ok inside :=
          (expand_eq_ok_iff levels inner b' inside).mpr ⟨body, by omega⟩
        have hfirst := expandStep_invocation_eq_ok_iff.mpr ⟨inner, b', opens, hbody⟩
        exact Or.inr ⟨⟨inside, hfirst⟩, f, after, rfl⟩

/-- **Expansion fails exactly for the first failure of a walk.** A recipe at a level of nesting is
expanded with the levels that are left, itself included; with none left it is not entered. -/
theorem expand_eq_error_iff (limit : Nat) : ∀ (levels level : Nat),
    level + levels = limit + 1 → ∀ (r : Recipe) (b : Bindings) (e : RecipeError),
    (expand index levels r b = .error e ↔
      levels = 0 ∧ (Failure.entering level r).error = e ∨
      0 < levels ∧ ∃ f, FirstFailure index limit level r b r.setup f ∧ f.error = e) := by
  intro levels
  induction levels with
  | zero =>
    intro level _ r b e
    simp [expand, Failure.error]
  | succ levels ih =>
    intro level hlevel r b e
    have hsum : level + levels = limit := by omega
    have hsteps := expandSteps_eq_error_iff hsum (ih (level + 1) (by omega)) r b e r.setup
    rw [expand_succ, hsteps]
    simp

end Provision.Recipe
