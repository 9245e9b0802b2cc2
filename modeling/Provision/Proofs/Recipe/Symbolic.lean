import Provision.Proofs.Recipe.Expansion
import Provision.Proofs.Registry
import Provision.Proofs.Uniform

/-!
# The values of arguments are copied and never read

Arguments of one shape leave slots for the values of a caller. With the slots left open, a recipe
comes to symbolic commands: literal text with references to slots. The commands for any values are
these, with the text of a value in the place of each reference. So no value is read as a template,
however deep it is handed on, and none decides whether there are commands, how many, or which
error there is.

Each function on the way, from binding arguments to expanding nested recipes, has a result that is
read from a symbolic one, since each looks at values only to copy them.

> `bind_uniform`, `substitute_uniform`: values are bound and put into templates as they are;
> `expand_uniform`: by induction on the levels, nested recipes copy them too;
> `commands_symbolic`: the commands of a recipe are symbolic commands with the values put in.
-/

namespace Provision

open Yaml (Value)

/-! ## Slots for values -/

/-- The arguments of a caller without the values: how many there are, or their names. -/
inductive Shape
  | positional (count : Nat)
  | named (names : List String) (nodup : names.Nodup)

namespace Shape

/-- How many slots for values there are. -/
def size : Shape → Nat
  | positional count => count
  | named names _ => names.length

/-- The arguments with values in the slots. -/
def arguments : (s : Shape) → (Fin s.size → Value) → Arguments
  | positional _, values => .positional (List.ofFn values)
  | named _ nodup, values => .named (Registry.ofNames _ nodup values)

/-- All arguments have a shape. -/
theorem exists_arguments_eq (a : Arguments) :
    ∃ (s : Shape) (values : Fin s.size → Value), s.arguments values = a := by
  cases a with
  | positional values =>
    exact ⟨.positional values.length, values.get, congrArg Arguments.positional (List.ofFn_get _)⟩
  | named values =>
    obtain ⟨slots, hslots⟩ := values.exists_ofNames_eq
    exact ⟨.named values.keys values.keys_nodup, slots, congrArg Arguments.named hslots⟩

end Shape

/-! ## Texts with references to slots -/

/-- A part of a symbolic text: literal text, or a reference to one of `n` slots. -/
inductive Fragment (n : Nat)
  | literal (text : String)
  | slot (i : Fin n)

/-- A text with references to `n` slots. -/
abbrev Symbolic (n : Nat) := List (Fragment n)

variable {n : Nat}

/-- The text of a part, with the text of the value for a reference. -/
def Fragment.text (values : Fin n → Value) : Fragment n → String
  | literal text => text
  | slot i => (values i).text

/-- The text with the text of the value in the place of each reference. -/
def Symbolic.text (values : Fin n → Value) : Symbolic n → String
  | [] => ""
  | f :: rest => f.text values ++ text values rest

@[simp] theorem Symbolic.text_cons (values : Fin n → Value) (f : Fragment n) (s : Symbolic n) :
    text values (f :: s) = f.text values ++ text values s := rfl

@[simp] theorem Symbolic.text_singleton (values : Fin n → Value) (f : Fragment n) :
    text values [f] = f.text values := String.append_empty

@[simp] theorem Symbolic.text_append (values : Fin n → Value) (s t : Symbolic n) :
    text values (s ++ t) = text values s ++ text values t := by
  induction s with
  | nil => exact String.empty_append.symm
  | cons f s ih => rw [List.cons_append, text_cons, ih, text_cons, String.append_assoc]

/-- Commands with the texts of the values in the places of all references. -/
def Symbolic.commands (values : Fin n → Value) : List (Symbolic n) → List String :=
  List.map (text values)

/-- Values of parameters with references to slots. -/
abbrev SymbolicBindings (n : Nat) := Registry (Symbolic n)

/-- The values of parameters, with values in the slots. -/
def SymbolicBindings.read (values : Fin n → Value) (b : SymbolicBindings n) : Bindings :=
  b.map fun _ s => Symbolic.text values s

namespace SymbolicBindings

/-- Reading the bindings under some values reads what is bound. -/
theorem get?_read (values : Fin n → Value) (b : SymbolicBindings n) (p : String) :
    (b.read values).get? p = (b.get? p).map (Symbolic.text values) :=
  Registry.get?_map _ b p

theorem read_erase (values : Fin n → Value) (b : SymbolicBindings n) (p : String) :
    read values (b.erase p) = (b.read values).erase p :=
  Registry.map_erase _ b p

theorem read_insert (values : Fin n → Value) (b : SymbolicBindings n) (p : String)
    (s : Symbolic n) : read values (b.insert p s) =
      (b.read values).insert p (Symbolic.text values s) :=
  Registry.map_insert _ b p s

/-- A literal is read as itself, whatever the values are. -/
theorem read_insert_literal (values : Fin n → Value) (b : SymbolicBindings n) (p text : String) :
    read values (b.insert p [.literal text]) = (b.read values).insert p text := by
  rw [read_insert, Symbolic.text_singleton, Fragment.text]

end SymbolicBindings

/-- An argument with open slots: a caller's value, a symbolic text, or a value that a
configuration declares. -/
inductive SymbolicValue (n : Nat)
  | slot (i : Fin n)
  | string (s : Symbolic n)
  | declared (v : Value)

namespace SymbolicValue

/-- The argument, with values in the slots. -/
def read (values : Fin n → Value) : SymbolicValue n → Value
  | slot i => values i
  | string s => .string (Symbolic.text values s)
  | declared v => v

/-- The text of the argument. -/
def symbolic : SymbolicValue n → Symbolic n
  | slot i => [.slot i]
  | string s => s
  | declared v => [.literal v.text]

/-- The text of a symbolic value is the text of the value. -/
theorem text_symbolic (values : Fin n → Value) (v : SymbolicValue n) :
    Symbolic.text values v.symbolic = (v.read values).text := by
  cases v with
  | slot i => exact Symbolic.text_singleton values _
  | string s => rfl
  | declared v => exact Symbolic.text_singleton values _

end SymbolicValue

/-- Arguments with open slots. -/
inductive SymbolicArguments (n : Nat)
  | positional (args : List (SymbolicValue n))
  | named (args : Registry (SymbolicValue n))

/-- The arguments, with values in the slots. -/
def SymbolicArguments.read (values : Fin n → Value) : SymbolicArguments n → Arguments
  | positional args => .positional (args.map (SymbolicValue.read values))
  | named args => .named (args.map fun _ v => v.read values)

/-- The arguments of a shape, with its slots open. -/
def Shape.symbolic : (s : Shape) → SymbolicArguments s.size
  | positional _ => .positional (List.ofFn .slot)
  | named _ nodup => .named (Registry.ofNames _ nodup .slot)

/-- The symbolic arguments of a shape are its arguments, once values are put in. -/
theorem Shape.read_symbolic (s : Shape) (values : Fin s.size → Value) :
    s.symbolic.read values = s.arguments values := by
  cases s with
  | positional count =>
    refine congrArg Arguments.positional ?_
    rw [List.map_ofFn]
    rfl
  | named names nodup => exact congrArg Arguments.named (Registry.map_ofNames _ nodup _)

/-! ## Each function copies the values -/

namespace Recipe

variable {index : RecipeIndex}

/-- Supplying arguments is uniform in their values. -/
theorem supplied_uniform (r : Recipe) (a : SymbolicArguments n) :
    Uniform SymbolicBindings.read fun values => r.supplied (a.read values) := by
  cases a with
  | positional args =>
    -- how many values there are is all that is looked at
    simp only [SymbolicArguments.read, supplied, List.length_map]
    by_cases hmany : r.params.length < args.length
    · simp only [if_pos hmany]
      exact .error _
    · simp only [if_neg hmany]
      refine .ok (Registry.ofList (r.params.zip (args.map SymbolicValue.symbolic))) fun values => ?_
      have htexts : (args.map (SymbolicValue.read values)).map Value.text =
          (args.map SymbolicValue.symbolic).map (Symbolic.text values) := by
        simp [SymbolicValue.text_symbolic]
      rw [SymbolicBindings.read, Registry.map_ofList, htexts, List.zip_map_right]
      rfl
  | named args =>
    simp only [SymbolicArguments.read, supplied, Registry.keys_map]
    cases args.keys.find? fun k => !r.params.contains k with
    | some k => exact .error _
    | none =>
      refine .ok (args.map fun _ v => v.symbolic) fun values => ?_
      simp only [SymbolicBindings.read, Registry.map_map, SymbolicValue.text_symbolic]

/-- Filling in the parameters is uniform in the values. -/
theorem fill_uniform (r : Recipe) : ∀ (params : List String) (given b : SymbolicBindings n),
    Uniform SymbolicBindings.read fun values =>
      r.fill params (given.read values) (b.read values) := by
  intro params
  induction params with
  | nil => exact fun _ b => .ok b fun _ => rfl
  | cons p params ih =>
    intro given b
    simp only [fill, SymbolicBindings.get?_read]
    cases given.get? p with
    | some s =>
      simp only [Option.map_some, ← SymbolicBindings.read_erase, ← SymbolicBindings.read_insert]
      exact ih (given.erase p) (b.insert p s)
    | none =>
      simp only [Option.map_none]
      cases r.defaults.get? p with
      | some v =>
        simp only [← SymbolicBindings.read_insert_literal]
        exact ih given _
      | none => exact .error _

/-- Binding arguments is uniform in their values. -/
theorem bind_uniform (r : Recipe) (a : SymbolicArguments n) :
    Uniform SymbolicBindings.read fun values => r.bind (a.read values) :=
  (supplied_uniform r a).bind fun given => fill_uniform r r.params given ∅

/-- Rendering a template is uniform in what the parameters are bound to. -/
theorem renderPieces_uniform (b : SymbolicBindings n) (pieces : List Template.Piece) :
    Uniform (fun values s => (Symbolic.text values s).toList) fun values =>
      Template.renderPieces (b.read values).get? pieces := by
  induction pieces with
  | nil => exact .ok [] fun _ => String.toList_empty.symm
  | cons piece pieces ih =>
    cases piece with
    | literal cs =>
      refine ih.bind fun s => .ok (.literal (String.ofList cs) :: s) fun values => ?_
      simp [Fragment.text]
    | placeholder name =>
      -- only the template is taken apart, so what is put in comes out as it is
      simp only [Template.renderPieces, SymbolicBindings.get?_read]
      cases b.get? (String.ofList name) with
      | none => exact .error _
      | some s =>
        refine ih.bind fun rest => .ok (s ++ rest) fun values => ?_
        rw [Symbolic.text_append, String.toList_append]

/-- Substituting into a template is uniform in the values. -/
theorem substitute_uniform (recipe template : String) (b : SymbolicBindings n) :
    Uniform Symbolic.text fun values => substitute recipe template (b.read values) := by
  refine .mapError _ (.map (g := id) (renderPieces_uniform b _) fun values s => ?_)
  exact String.ofList_toList

/-- Substituting into a value is uniform in the values. -/
theorem substituteValue_uniform (r : Recipe) (b : SymbolicBindings n) (v : Value) :
    Uniform SymbolicValue.read fun values => r.substituteValue (b.read values) v := by
  cases v with
  | string s => exact (substitute_uniform r.name s b).map (g := .string) fun _ _ => rfl
  | _ => exact .ok (.declared _) fun _ => rfl

/-- Substituting into named values is uniform, entry by entry. -/
theorem substituteEntries_uniform (r : Recipe) (b : SymbolicBindings n)
    (entries : List (String × Value)) :
    Uniform (fun values => List.map (Prod.map id (SymbolicValue.read values))) fun values =>
      r.substituteEntries (b.read values) entries := by
  induction entries with
  | nil => exact .ok [] fun _ => rfl
  | cons e entries ih =>
    exact (substituteValue_uniform r b e.2).bind fun v => ih.bind fun rest =>
      .ok ((e.1, v) :: rest) fun _ => rfl

/-- Substituting into arguments is uniform in the values. -/
theorem substituteArguments_uniform (r : Recipe) (b : SymbolicBindings n) (a : Arguments) :
    Uniform SymbolicArguments.read fun values => r.substituteArguments (b.read values) a := by
  cases a with
  | positional args =>
    exact (Uniform.mapM (substituteValue_uniform r b) args).map (g := .positional) fun _ _ => rfl
  | named args =>
    refine (substituteEntries_uniform r b args.entries).bind fun entries =>
      .ok (.named (Registry.ofList entries)) fun values => ?_
    rw [SymbolicArguments.read, Registry.map_ofList]
    rfl

/-- Steps copy the values, if the recipes below them do. -/
theorem expandStep_uniform {levels : Nat}
    (below : ∀ (r : Recipe) (b : SymbolicBindings n),
      Uniform Symbolic.commands fun values => expand index levels r (b.read values))
    (r : Recipe) (b : SymbolicBindings n) (step : Executable) :
    Uniform Symbolic.commands fun values => expandStep index levels r (b.read values) step := by
  cases step with
  | command template =>
    exact (substitute_uniform r.name template b).map (g := ([·])) fun _ _ => rfl
  | invocation i =>
    -- what the inner recipe is bound to refers to the slots of the outermost caller
    exact (Uniform.const (lookup index i.recipe)).bind fun inner =>
      (substituteArguments_uniform r b i.arguments).bind fun a =>
        (bind_uniform inner a).bind fun b' => below inner b'

/-- However deep values are handed on, they are copied. -/
theorem expand_uniform : ∀ (levels : Nat) (r : Recipe) (b : SymbolicBindings n),
    Uniform Symbolic.commands fun values => expand index levels r (b.read values) := by
  intro levels
  induction levels with
  | zero => exact fun _ _ => .error _
  | succ levels ih =>
    intro r b
    simp only [expand_succ, expandSteps]
    have hsteps := Uniform.mapM (expandStep_uniform ih r b) r.setup
    exact hsteps.map (g := List.flatten) fun _ _ => List.map_flatten.symm

/-- The commands of a setup are uniform in the values of the arguments. -/
theorem setupCommands_uniform (index : RecipeIndex) (r : Recipe) (a : SymbolicArguments n) :
    Uniform Symbolic.commands fun values => r.setupCommands (a.read values) index :=
  (bind_uniform r a).bind fun b => expand_uniform maxDepth r b

/-- The check command is uniform in the values of the arguments. -/
theorem checkCommand_uniform (r : Recipe) (a : SymbolicArguments n) :
    Uniform Symbolic.text fun values => r.checkCommand (a.read values) := by
  simp only [checkCommand]
  cases r.check with
  | none => exact .error _
  | some template => exact (bind_uniform r a).bind fun b => substitute_uniform r.name template b

/-- **The values of arguments are copied and never read.** All arguments are values in the slots of
a shape. For arguments of one shape, a recipe has one result with open slots for its setup and one
for its check, which are an error or symbolic commands; whatever the values are, its commands are
these with the text of a value in the place of each reference. So the values decide neither the
error nor the number of commands. -/
theorem commands_symbolic (index : RecipeIndex) (r : Recipe) :
    (∀ a : Arguments, ∃ (s : Shape) (values : Fin s.size → Value), s.arguments values = a) ∧
    ∀ s : Shape,
      (∃ symbolic : Except RecipeError (List (Symbolic s.size)), ∀ values,
        r.setupCommands (s.arguments values) index = symbolic.map (Symbolic.commands values)) ∧
      (∃ symbolic : Except RecipeError (Symbolic s.size), ∀ values,
        r.checkCommand (s.arguments values) = symbolic.map (Symbolic.text values)) ∧
      ∀ values values',
        (r.setupCommands (s.arguments values) index).map List.length =
          (r.setupCommands (s.arguments values') index).map List.length ∧
        (r.checkCommand (s.arguments values)).map (fun _ => ()) =
          (r.checkCommand (s.arguments values')).map fun _ => () := by
  refine ⟨Shape.exists_arguments_eq, fun s => ?_⟩
  have hsetup := setupCommands_uniform index r s.symbolic
  have hcheck := checkCommand_uniform r s.symbolic
  simp only [s.read_symbolic] at hsetup hcheck
  refine ⟨hsetup, hcheck, fun values values' => ⟨?_, ?_⟩⟩
  · refine hsetup.map_eq (fun _ _ commands => ?_) values values'
    simp only [Symbolic.commands, List.length_map]
  · exact hcheck.map_eq (fun _ _ _ => rfl) values values'

/-- A value with braces goes through two recipes. -/
example :
    let inner : Recipe :=
      { name := "inner", params := ["y"], setup := [.command "echo {y}"] }
    let outer : Recipe :=
      { name   := "outer"
        params := ["x"]
        setup  := [.invocation ⟨"inner", .positional [.string "<{x}>"]⟩] }
    outer.setupCommands (.positional [.string "{y}"]) (Registry.ofList [("inner", inner)]) =
      .ok ["echo <{y}>"] := by
  cbv

end Recipe

end Provision
