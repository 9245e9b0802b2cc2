import Mathlib.Data.List.Chain
import Mathlib.Logic.Relation
import Provision.Proofs.Recipe.Expansion

/-!
# Recipes nested inside one another

A derivation for a recipe contains smaller ones for all recipes that it invokes, so that nothing
is derived for a recipe that leads to a cycle of invocations. What is walked before a recipe is
entered too deep is a chain of recipes, each of which invokes the next.

> `not_expands_of_cycle`: a recipe that leads to a cycle has no derivation;
> `FirstFailure.exists_chain`: a recipe is entered at the end of a chain of invocations;
> `setupCommands_bounded`: expansion with the limit of 32, and the same without any limit.
-/

namespace Provision.Recipe

open Relation (ReflTransGen TransGen)

variable {index : RecipeIndex}

/-- Whether the setup of a recipe invokes a declared recipe. -/
def Invokes (index : RecipeIndex) (r inner : Recipe) : Prop :=
  ∃ i, Executable.invocation i ∈ r.setup ∧ index.get? i.recipe = some inner

/-! ## Derivations inside of derivations -/

/-- Every invocation among the steps has a smaller derivation of its own. -/
theorem Expansion.exists_body {r inner : Recipe} {b : Bindings} {steps : List Executable}
    {commands : List String} {i : Invocation} (d : Expansion index r b steps commands)
    (hi : .invocation i ∈ steps) (known : index.get? i.recipe = some inner) :
    ∃ b' inside, ∃ d' : Expansion index inner b' inner.setup inside, d'.nesting < d.nesting := by
  induction d with
  | done => simp at hi
  | command written after ih =>
    rcases List.mem_cons.mp hi with h | h
    · simp at h
    · exact ih h
  | invocation opens body after _ ih =>
    rcases List.mem_cons.mp hi with h | h
    · obtain rfl := Executable.invocation.inj h
      obtain ⟨known', -, -⟩ := opens
      obtain rfl := Option.some.inj (known.symm.trans known')
      exact ⟨_, _, body, Nat.lt_of_lt_of_le (Nat.lt_succ_self _) (Nat.le_max_left _ _)⟩
    · obtain ⟨b', inside, d', hd'⟩ := ih h
      exact ⟨b', inside, d', Nat.lt_of_lt_of_le hd' (Nat.le_max_right _ _)⟩

/-- What a recipe invokes, directly or not, is expanded inside of it at a smaller nesting. -/
theorem Expansion.exists_of_transGen {r inner : Recipe} (h : TransGen (Invokes index) r inner) :
    ∀ {b : Bindings} {commands : List String} (d : Expansion index r b r.setup commands),
      ∃ b' inside, ∃ d' : Expansion index inner b' inner.setup inside,
        d'.nesting < d.nesting := by
  induction h using TransGen.head_induction_on with
  | single hstep =>
    intro b commands d
    obtain ⟨i, hi, known⟩ := hstep
    exact d.exists_body hi known
  | head hstep _ ih =>
    intro b commands d
    obtain ⟨i, hi, known⟩ := hstep
    obtain ⟨_, _, d', hd'⟩ := d.exists_body hi known
    obtain ⟨b', inside, d'', hd''⟩ := ih d'
    exact ⟨b', inside, d'', Nat.lt_trans hd'' hd'⟩

/-- A recipe on a cycle of invocations has no derivation: going around the cycle would give
smaller and smaller ones. -/
theorem not_expands_of_cycle {r : Recipe} (h : TransGen (Invokes index) r r) {b : Bindings}
    {commands : List String} (d : Expansion index r b r.setup commands) : False := by
  have hnone : ∀ n, ∀ {b : Bindings} {commands : List String}
      (d : Expansion index r b r.setup commands), n < d.nesting := by
    intro n
    induction n with
    | zero => exact fun d => d.nesting_pos
    | succ n ih =>
      intro b commands d
      obtain ⟨_, _, d', hd'⟩ := Expansion.exists_of_transGen h d
      exact Nat.lt_of_le_of_lt (ih d') hd'
  exact Nat.lt_irrefl _ (hnone d.nesting d)

/-- Neither has a recipe that leads to a cycle. -/
theorem not_expands_of_reflTransGen {r inner : Recipe} (h : ReflTransGen (Invokes index) r inner)
    (hcycle : TransGen (Invokes index) inner inner) {b : Bindings} {commands : List String}
    (d : Expansion index r b r.setup commands) : False := by
  rcases Relation.reflTransGen_iff_eq_or_transGen.mp h with rfl | h
  · exact not_expands_of_cycle hcycle d
  · obtain ⟨_, _, d', -⟩ := Expansion.exists_of_transGen h d
    exact not_expands_of_cycle hcycle d'

/-! ## Where a walk fails -/

namespace FirstFailure

variable {limit level : Nat} {r : Recipe} {b : Bindings} {steps : List Executable}

/-- What holds of a walk that stops in a recipe, and of a walk that stops inside a recipe that is
invoked, holds of all walks that fail. What the steps before have come to plays no part. -/
theorem induction {P : Nat → Recipe → Failure → Prop}
    (refused : ∀ {level r b step e}, step ∈ r.setup → Refuses index r b step e →
      P level r (.refused e))
    (entering : ∀ {level r inner}, Invokes index r inner → limit < level + 1 →
      P level r (.entering (level + 1) inner))
    (inside : ∀ {level r inner f}, Invokes index r inner → level + 1 ≤ limit →
      P (level + 1) inner f → P level r f)
    {f : Failure} (h : FirstFailure index limit level r b steps f)
    (hsteps : ∀ step ∈ steps, step ∈ r.setup) : P level r f := by
  induction h with
  | refused refuses => exact refused (hsteps _ (List.mem_cons_self ..)) refuses
  | @entering _ _ _ i _ _ _ opens deep =>
    obtain ⟨known, -, -⟩ := opens
    exact entering ⟨i, hsteps _ (List.mem_cons_self ..), known⟩ deep
  | @inside _ _ _ i _ _ _ _ opens fits _ ih =>
    obtain ⟨known, -, -⟩ := opens
    exact inside ⟨i, hsteps _ (List.mem_cons_self ..), known⟩ fits (ih fun _ hstep => hstep)
  | afterCommand _ _ ih => exact ih fun step hstep => hsteps step (List.mem_cons_of_mem _ hstep)
  | afterInvocation _ _ _ _ ih =>
    exact ih fun step hstep => hsteps step (List.mem_cons_of_mem _ hstep)

/-- A recipe that may not be entered is one level below the limit, at the end of a chain of
recipes, one for each level. -/
theorem exists_chain {k : Nat} {x : Recipe}
    (h : FirstFailure index limit level r b steps (.entering k x))
    (hsteps : ∀ step ∈ steps, step ∈ r.setup) (hlevel : level ≤ limit) :
    k = limit + 1 ∧ ∃ chain, (r :: chain).IsChain (Invokes index) ∧ level + chain.length = k := by
  generalize hf : Failure.entering k x = f at h
  revert hlevel hf
  refine h.induction (P := fun level r f => level ≤ limit → .entering k x = f → k = limit + 1 ∧
    ∃ chain, (r :: chain).IsChain (Invokes index) ∧ level + chain.length = k) ?_ ?_ ?_ hsteps
  · intro _ _ _ _ _ _ _ _ hf
    simp at hf
  · intro level r inner hinvokes hdeep hlevel hf
    obtain ⟨rfl, rfl⟩ := Failure.entering.inj hf
    exact ⟨by omega, [x], List.isChain_pair.mpr hinvokes, rfl⟩
  · intro level r inner f hinvokes hfits ih _ hf
    obtain ⟨hk, chain, hchain, hlength⟩ := ih hfits hf
    refine ⟨hk, inner :: chain, List.isChain_cons_cons.mpr ⟨hinvokes, hchain⟩, ?_⟩
    rw [List.length_cons]
    omega

/-- What is refused is a step of some recipe that the walk has come to. -/
theorem exists_refuses {e : RecipeError}
    (h : FirstFailure index limit level r b steps (.refused e))
    (hsteps : ∀ step ∈ steps, step ∈ r.setup) :
    ∃ r' b' step, ReflTransGen (Invokes index) r r' ∧ step ∈ r'.setup ∧
      Refuses index r' b' step e := by
  generalize hf : Failure.refused e = f at h
  revert hf
  refine h.induction (P := fun _ r f => .refused e = f → ∃ r' b' step,
    ReflTransGen (Invokes index) r r' ∧ step ∈ r'.setup ∧ Refuses index r' b' step e)
    ?_ ?_ ?_ hsteps
  · intro _ r b step e hstep refuses hf
    obtain rfl := Failure.refused.inj hf
    exact ⟨r, b, step, .refl, hstep, refuses⟩
  · intro _ _ _ _ _ hf
    simp at hf
  · intro _ r inner f hinvokes _ ih hf
    obtain ⟨r', b', step, hreach, hstep, refuses⟩ := ih hf
    exact ⟨r', b', step, .head hinvokes hreach, hstep, refuses⟩

end FirstFailure

/-- A step is refused for an unknown recipe, or for what arguments and templates are refused. -/
theorem Refuses.reason {r : Recipe} {b : Bindings} {step : Executable} {e : RecipeError}
    (h : Refuses index r b step e) :
    e.OfArguments ∨ ∃ i, step = .invocation i ∧ index.get? i.recipe = none ∧
      e = .unknownRecipe i.recipe := by
  cases h with
  | template refused => exact Or.inl (substitute_refused refused)
  | @unknown i unknown => exact Or.inr ⟨i, rfl, unknown, rfl⟩
  | arguments _ refused => exact Or.inl (substituteArguments_refused refused)
  | binding _ _ refused => exact Or.inl (bind_refused refused)

/-! ## Whole recipes -/

/-- The setup of a recipe has commands exactly when its arguments bind and it nests no deeper than
allowed. -/
theorem setupCommands_eq_ok_iff {r : Recipe} {a : Arguments} {commands : List String} :
    r.setupCommands a index = .ok commands ↔
      ∃ b, r.bind a = .ok b ∧
        ∃ d : Expansion index r b r.setup commands, d.nesting ≤ maxDepth := by
  rw [setupCommands, bind_eq_ok_iff]
  simp only [expand_eq_ok_iff]

/-- Installing with a recipe fails because its arguments do not bind, or for the first failure of
a walk over its setup. -/
theorem setupCommands_eq_error_iff {r : Recipe} {a : Arguments} {e : RecipeError} :
    r.setupCommands a index = .error e ↔ r.bind a = .error e ∨
      ∃ b, r.bind a = .ok b ∧ ∃ f, FirstFailure index maxDepth 1 r b r.setup f ∧ f.error = e := by
  rw [setupCommands, bind_eq_error_iff]
  simp only [expand_eq_error_iff maxDepth maxDepth 1 (Nat.add_comm _ _)]
  simp [maxDepth]

/-- It is told that recipes are nested too deep exactly if the first failure is to enter one of
them below the limit. -/
theorem setupCommands_eq_tooDeep_iff {r : Recipe} {a : Arguments} {name : String} {limit : Nat} :
    r.setupCommands a index = .error (.tooDeep name limit) ↔
      limit = maxDepth ∧ ∃ b x, r.bind a = .ok b ∧ x.name = name ∧
        FirstFailure index maxDepth 1 r b r.setup (.entering (maxDepth + 1) x) := by
  rw [setupCommands_eq_error_iff]
  constructor
  · rintro (hbind | ⟨b, hb, f, hf, he⟩)
    · exact nomatch bind_refused hbind
    · cases f with
      | refused e =>
        obtain rfl : e = _ := he
        obtain ⟨_, _, _, -, -, refuses⟩ := hf.exists_refuses fun _ hstep => hstep
        rcases refuses.reason with hreason | ⟨_, -, -, he⟩
        · exact nomatch hreason
        · simp at he
      | entering k x =>
        obtain ⟨hname, hlimit⟩ := RecipeError.tooDeep.inj he
        obtain ⟨rfl, -⟩ := hf.exists_chain (fun _ hstep => hstep) (by decide)
        exact ⟨hlimit.symm, b, x, hb, hname, hf⟩
  · rintro ⟨rfl, b, x, hb, rfl, hf⟩
    exact Or.inr ⟨b, hb, _, hf, rfl⟩

/-- **Expansion with its limit agrees with expansion without one**, cycles or not. It succeeds
exactly if the arguments bind and there is a derivation of the commands that nests at most 32
recipes; so a recipe that leads to a cycle of invocations always ends with an error. It is told
that recipes are nested too deep exactly if the first thing to go wrong, walking the setup depth
first and in order, is to enter a recipe at the 33rd level. -/
theorem setupCommands_bounded (index : RecipeIndex) (r : Recipe) (a : Arguments) :
    (∀ commands, r.setupCommands a index = .ok commands ↔
      ∃ b, r.bind a = .ok b ∧ ∃ d : Expansion index r b r.setup commands, d.nesting ≤ 32) ∧
    ((∃ inner, ReflTransGen (Invokes index) r inner ∧ TransGen (Invokes index) inner inner) →
      ∃ e, r.setupCommands a index = .error e) ∧
    ∀ name limit, r.setupCommands a index = .error (.tooDeep name limit) ↔
      limit = 32 ∧ ∃ b x, r.bind a = .ok b ∧ x.name = name ∧
        FirstFailure index 32 1 r b r.setup (.entering 33 x) := by
  refine ⟨fun commands => setupCommands_eq_ok_iff, ?_, fun name limit =>
    setupCommands_eq_tooDeep_iff⟩
  rintro ⟨inner, hreach, hcycle⟩
  cases hresult : r.setupCommands a index with
  | error e => exact ⟨e, rfl⟩
  | ok commands =>
    obtain ⟨b, -, d, -⟩ := setupCommands_eq_ok_iff.mp hresult
    exact absurd (not_expands_of_reflTransGen hreach hcycle d) not_false

/-- Two recipes that invoke each other, the first of them again at the 33rd level. -/
example :
    let a : Recipe := { name := "a", setup := [.invocation ⟨"b", .empty⟩] }
    let b : Recipe := { name := "b", setup := [.invocation ⟨"a", .empty⟩] }
    a.setupCommands .empty (Registry.ofList [("a", a), ("b", b)]) = .error (.tooDeep "a" 32) := by
  cbv

end Provision.Recipe
