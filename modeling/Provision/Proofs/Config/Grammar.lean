import Provision.Proofs.Config.Executable
import Provision.Proofs.Yaml.Content

/-!
# The grammar of executables

A string is a command, and a mapping with the fields `recipe` and `args` an invocation. The
decoder accepts two shapes more: the fields of an invocation as a sequence, and the numbers 0 and
1 in place of their names. The relations here are about the content of a node; each of them is
what the decoder looks for, neither more nor less.

> `Executable.decode_eq_ok_iff`: which nodes are executables, and which ones;
> `Executable.decode_accepts_sequence`: a sequence and a number that are accepted.
-/

namespace Provision

open Yaml (Value Loose Decode Document Node Surroundings)
open Yaml.Decode

/-! ## Arguments -/

namespace Arguments

/-- Which contents are arguments: sequences of values, by position, and mappings from strings to
values, by name. A name that comes again takes the value of the one before it. -/
inductive Form : Loose → Arguments → Prop
  | positional {items : List Loose} {values : List Value}
      (each : List.Forall₂ (fun l v => l.value? = some v) items values) :
      Form (.sequence items) (.positional values)
  | named {es : List (Loose × Loose)} {written : List (String × Value)}
      (each : List.Forall₂ (fun e w => e.1 = .string w.1 ∧ e.2.value? = some w.2) es written) :
      Form (.mapping es) (.named (Registry.ofList written))

/-- An entry is a named argument when its key is a string and its value has a kind. -/
theorem namedEntry_eq_some_iff {e : Loose × Loose} {w : String × Value} :
    (match e.1 with
      | .string name => e.2.value?.map fun v => (name, v)
      | _ => none) = some w ↔ e.1 = .string w.1 ∧ e.2.value? = some w.2 := by
  obtain ⟨k, v⟩ := e
  obtain ⟨name, x⟩ := w
  cases k <;> simp [and_comm]

/-- The nodes that are arguments: a sequence, or a mapping with strings as keys. -/
theorem ofLoose?_eq_some_iff {l : Loose} {a : Arguments} : ofLoose? l = some a ↔ Form l a := by
  constructor
  · intro h
    unfold ofLoose? at h
    split at h
    · obtain ⟨values, hvalues, rfl⟩ := Option.map_eq_some_iff.mp h
      exact .positional (Loose.values?_eq_some_iff.mp hvalues)
    · obtain ⟨written, hwritten, hpure⟩ := Option.bind_eq_some_iff.mp h
      obtain rfl := Option.some.inj hpure
      exact .named ((mapM_eq_some_iff.mp hwritten).imp fun _ _ => namedEntry_eq_some_iff.mp)
    · exact nomatch h
  · intro h
    cases h with
    | positional each => exact Option.map_eq_some_iff.mpr ⟨_, Loose.values?_eq_some_iff.mpr each, rfl⟩
    | named each =>
      have hwritten := mapM_eq_some_iff.mpr (each.imp fun _ _ => namedEntry_eq_some_iff.mpr)
      exact Option.bind_eq_some_iff.mpr ⟨_, hwritten, rfl⟩

end Arguments

/-! ## Invocations -/

namespace Invocation

/-- The entries that name a field. -/
def entriesOf (name : String) (es : List (Loose × Loose)) : List (Loose × Loose) :=
  es.filter fun e => fieldOf? e.1 == some name

/-- Which contents are invocations: mappings with the field `recipe` once, a string, and the field
`args` at most once, and no other; and sequences of these fields in order. -/
inductive Form : Loose → Invocation → Prop
  | fields {es : List (Loose × Loose)} {k : Loose} {name : String}
      (known : ∀ e ∈ es, ∃ field ∈ fieldNames, fieldOf? e.1 = some field)
      (recipe : entriesOf "recipe" es = [(k, .string name)])
      (noArgs : entriesOf "args" es = []) : Form (.mapping es) ⟨name, .empty⟩
  | fieldsWith {es : List (Loose × Loose)} {k k' l : Loose} {name : String} {args : Arguments}
      (known : ∀ e ∈ es, ∃ field ∈ fieldNames, fieldOf? e.1 = some field)
      (recipe : entriesOf "recipe" es = [(k, .string name)])
      (oneArgs : entriesOf "args" es = [(k', l)]) (said : Arguments.Form l args) :
      Form (.mapping es) ⟨name, args⟩
  | recipe {name : String} : Form (.sequence [.string name]) ⟨name, .empty⟩
  | recipeWith {name : String} {l : Loose} {args : Arguments} (said : Arguments.Form l args) :
      Form (.sequence [.string name, l]) ⟨name, args⟩

/-- What the entries of a mapping make of a field: they leave it, or one of them sets it. -/
def Sets {α : Type} (name : String) (P : Loose → α → Prop) (es : List (Loose × Loose))
    (before after : Option α) : Prop :=
  (entriesOf name es = [] ∧ after = before) ∨
    (before = none ∧ ∃ k l x, entriesOf name es = [(k, l)] ∧ P l x ∧ after = some x)

/-- A key means the recipe by its name or by its place in the declaration. -/
theorem fieldOf?_eq_recipe_iff {k : Loose} :
    fieldOf? k = some "recipe" ↔ k = .string "recipe" ∨ k = .integer 0 false := by
  unfold fieldOf?
  split <;> simp_all

/-- A key means the arguments by its name or by its place in the declaration. -/
theorem fieldOf?_eq_args_iff {k : Loose} :
    fieldOf? k = some "args" ↔ k = .string "args" ∨ k = .integer 1 false := by
  unfold fieldOf?
  split <;> simp_all

/-- What one entry makes of the fields. -/
theorem addLoose?_eq_some_iff {f f' : Fields} {k v : Loose} : addLoose? f (k, v) = some f' ↔
    (fieldOf? k = some "recipe" ∧ f.recipe = none ∧
      ∃ r, v = .string r ∧ f' = { f with recipe := some r }) ∨
    (fieldOf? k = some "args" ∧ f.args = none ∧
      ∃ a, Arguments.ofLoose? v = some a ∧ f' = { f with args := some a }) := by
  refine ⟨addLoose?_eq_some, ?_⟩
  rintro (⟨hk, hnone, r, rfl, rfl⟩ | ⟨hk, hnone, a, ha, rfl⟩)
  · rcases fieldOf?_eq_recipe_iff.mp hk with rfl | rfl <;> simp [addLoose?, hnone]
  · rcases fieldOf?_eq_args_iff.mp hk with rfl | rfl <;> simp [addLoose?, hnone, ha]

/-- An entry that gives a field has to be the only one that does. -/
theorem Sets.cons_of_eq {α : Type} {name : String} {P : Loose → α → Prop} {k l : Loose}
    {es : List (Loose × Loose)} {before after : Option α} (hk : fieldOf? k = some name) :
    Sets name P ((k, l) :: es) before after ↔
      before = none ∧ ∃ x, P l x ∧ Sets name P es (some x) after := by
  have hes : entriesOf name ((k, l) :: es) = (k, l) :: entriesOf name es :=
    List.filter_cons_of_pos (by simp [hk])
  simp only [Sets, hes, List.cons_ne_nil, false_and, false_or, reduceCtorEq, or_false,
    List.cons.injEq, Prod.mk.injEq]
  constructor
  · rintro ⟨hnone, _, _, x, ⟨⟨rfl, rfl⟩, hrest⟩, hx, rfl⟩
    exact ⟨hnone, x, hx, hrest, rfl⟩
  · rintro ⟨hnone, x, hx, hrest, rfl⟩
    exact ⟨hnone, k, l, x, ⟨⟨rfl, rfl⟩, hrest⟩, hx, rfl⟩

/-- An entry for another field changes nothing. -/
theorem Sets.cons_of_ne {α : Type} {name : String} {P : Loose → α → Prop} {k l : Loose}
    {es : List (Loose × Loose)} {before after : Option α} (hk : fieldOf? k ≠ some name) :
    Sets name P ((k, l) :: es) before after ↔ Sets name P es before after := by
  have hes : entriesOf name ((k, l) :: es) = entriesOf name es :=
    List.filter_cons_of_neg (by simpa using hk)
  rw [Sets, Sets, hes]

/-- **What all entries make of the fields.** Each entry names a field, and no field is set twice. -/
theorem foldlM_addLoose?_eq_some_iff {es : List (Loose × Loose)} : ∀ {f f' : Fields},
    es.foldlM addLoose? f = some f' ↔
      (∀ e ∈ es, ∃ field ∈ fieldNames, fieldOf? e.1 = some field) ∧
      Sets "recipe" (fun l r => l = .string r) es f.recipe f'.recipe ∧
      Sets "args" Arguments.Form es f.args f'.args := by
  induction es with
  | nil =>
    intro f f'
    obtain ⟨recipe, args⟩ := f
    obtain ⟨recipe', args'⟩ := f'
    simp [Sets, entriesOf, eq_comm]
  | cons e es ih =>
    intro f f'
    obtain ⟨k, v⟩ := e
    simp only [List.foldlM_cons, Option.bind_eq_bind, Option.bind_eq_some_iff, ih,
      addLoose?_eq_some_iff, Arguments.ofLoose?_eq_some_iff, List.forall_mem_cons]
    constructor
    · rintro ⟨next, ⟨hk, hnone, r, rfl, rfl⟩ | ⟨hk, hnone, a, ha, rfl⟩, hknown, hrecipe, hargs⟩
      · refine ⟨⟨⟨_, by decide, hk⟩, hknown⟩, (Sets.cons_of_eq hk).mpr ⟨hnone, r, rfl, hrecipe⟩, ?_⟩
        exact (Sets.cons_of_ne (by rw [hk]; decide)).mpr hargs
      · refine ⟨⟨⟨_, by decide, hk⟩, hknown⟩, ?_, (Sets.cons_of_eq hk).mpr ⟨hnone, a, ha, hargs⟩⟩
        exact (Sets.cons_of_ne (by rw [hk]; decide)).mpr hrecipe
    · rintro ⟨⟨⟨field, hfield, hk⟩, hknown⟩, hrecipe, hargs⟩
      rcases (by simpa [fieldNames] using hfield : field = "recipe" ∨ field = "args") with rfl | rfl
      · obtain ⟨hnone, r, rfl, hrest⟩ := (Sets.cons_of_eq hk).mp hrecipe
        rw [Sets.cons_of_ne (by rw [hk]; decide)] at hargs
        exact ⟨_, Or.inl ⟨hk, hnone, r, rfl, rfl⟩, hknown, hrest, hargs⟩
      · obtain ⟨hnone, a, ha, hrest⟩ := (Sets.cons_of_eq hk).mp hargs
        rw [Sets.cons_of_ne (by rw [hk]; decide)] at hrecipe
        exact ⟨_, Or.inr ⟨hk, hnone, a, ha, rfl⟩, hknown, hrecipe, hrest⟩

theorem ofLoose?_mapping_eq_some_iff {es : List (Loose × Loose)} {i : Invocation} :
    ofLoose? (.mapping es) = some i ↔ Form (.mapping es) i := by
  have hfields : ofLoose? (.mapping es) = some i ↔ ∃ f : Fields,
      es.foldlM addLoose? ({} : Fields) = some f ∧
        ∃ name, f.recipe = some name ∧ i = ⟨name, f.args.getD .empty⟩ := by
    simp only [ofLoose?, Option.bind_eq_bind, Option.bind_eq_some_iff, Option.pure_def,
      Option.some.injEq, eq_comm (a := i)]
  simp only [hfields, foldlM_addLoose?_eq_some_iff]
  constructor
  · rintro ⟨⟨_, _⟩, ⟨hknown, hrecipe, hargs⟩, name, rfl, rfl⟩
    obtain ⟨-, hrecipe⟩ | ⟨-, k, _, _, hrecipe, rfl, hname⟩ := hrecipe
    · exact nomatch hrecipe
    · obtain rfl := Option.some.inj hname
      obtain ⟨hargs, rfl⟩ | ⟨-, k', l, a, hargs, hl, rfl⟩ := hargs
      · exact .fields hknown hrecipe hargs
      · exact .fieldsWith hknown hrecipe hargs hl
  · intro h
    cases h with
    | fields hknown hrecipe hargs =>
      exact ⟨⟨_, none⟩, ⟨hknown, Or.inr ⟨rfl, _, _, _, hrecipe, rfl, rfl⟩, Or.inl ⟨hargs, rfl⟩⟩,
        _, rfl, rfl⟩
    | fieldsWith hknown hrecipe hargs hl =>
      exact ⟨⟨_, some _⟩, ⟨hknown, Or.inr ⟨rfl, _, _, _, hrecipe, rfl, rfl⟩,
        Or.inr ⟨rfl, _, _, _, hargs, hl, rfl⟩⟩, _, rfl, rfl⟩

theorem ofLoose?_eq_some_iff {l : Loose} {i : Invocation} : ofLoose? l = some i ↔ Form l i := by
  constructor
  · intro h
    have hshape := h
    unfold ofLoose? at hshape
    split at hshape
    · obtain rfl := Option.some.inj hshape
      exact .recipe
    · obtain ⟨args, hargs, rfl⟩ := Option.map_eq_some_iff.mp hshape
      exact .recipeWith (Arguments.ofLoose?_eq_some_iff.mp hargs)
    · exact ofLoose?_mapping_eq_some_iff.mp h
    · exact nomatch hshape
  · intro h
    cases h with
    | fields hknown hrecipe hargs =>
      exact ofLoose?_mapping_eq_some_iff.mpr (.fields hknown hrecipe hargs)
    | fieldsWith hknown hrecipe hargs hl =>
      exact ofLoose?_mapping_eq_some_iff.mpr (.fieldsWith hknown hrecipe hargs hl)
    | recipe => rfl
    | recipeWith hl =>
      exact Option.map_eq_some_iff.mpr ⟨_, Arguments.ofLoose?_eq_some_iff.mpr hl, rfl⟩

end Invocation

/-! ## Executables -/

namespace Executable

/-- Which contents are executables: a string is a command, all others are invocations. -/
inductive Form : Loose → Executable → Prop
  | command (text : String) : Form (.string text) (.command text)
  | invocation {l : Loose} {i : Invocation} (said : Invocation.Form l i) : Form l (.invocation i)

theorem ofLoose?_eq_some_iff {l : Loose} {e : Executable} : ofLoose? l = some e ↔ Form l e := by
  constructor
  · intro h
    unfold ofLoose? at h
    split at h
    · obtain rfl := Option.some.inj h
      exact .command _
    · obtain ⟨i, hi, rfl⟩ := Option.map_eq_some_iff.mp h
      exact .invocation (Invocation.ofLoose?_eq_some_iff.mp hi)
  · intro h
    cases h with
    | command text => rfl
    | invocation said =>
      have hi := Invocation.ofLoose?_eq_some_iff.mpr said
      cases said <;> exact Option.map_eq_some_iff.mpr ⟨_, hi, rfl⟩

theorem decode_exactly {env : Surroundings} (depth : Nat) (t : Target) :
    (decode depth t).Exactly env fun e k =>
      ∃ l, Yaml.Decode.Holds env depth t.node l k ∧ Form l e := by
  refine ((loose_exactly depth t).bind (Q := fun l e k => Form l e ∧ k = 0)
    fun l _ _ => ?_).congr fun e k => ⟨?_, ?_⟩
  · simp only [← ofLoose?_eq_some_iff]
    cases ofLoose? l with
    | none => exact (exactly_complain _).congr fun e k => by simp
    | some e => exact (exactly_pure e).congr fun e' k => by simp [eq_comm]
  · rintro ⟨l, i, _, hl, ⟨he, rfl⟩, rfl⟩
    exact ⟨l, hl, he⟩
  · rintro ⟨l, hl, he⟩
    exact ⟨l, k, 0, hl, ⟨he, rfl⟩, rfl⟩

/-- **What is an executable.** A node is decoded as an executable exactly if it holds a content that
is one, and if as many references may be followed as there are in it: a string is the command with
its text; a mapping is an invocation if each of its keys names the field `recipe` or the field
`args`, the former once with a string, the latter at most once with a sequence of values or a
mapping from strings to values; a sequence is one if it has these fields in order. -/
theorem decode_eq_ok_iff (env : Surroundings) (depth : Nat) (n : Node) (path : Yaml.Path)
    (before after : Nat) (e : Executable) :
    decode depth ⟨n, path⟩ env before = .ok (e, after) ↔
      ∃ l k, Yaml.Decode.Holds env depth n l k ∧ Form l e ∧ env.Affords before k ∧
        after = before + k := by
  rw [decode_exactly depth ⟨n, path⟩ before e after]
  constructor
  · rintro ⟨k, ⟨l, hl, he⟩, hafford, rfl⟩
    exact ⟨l, k, hl, he, hafford, rfl⟩
  · rintro ⟨l, k, hl, he, hafford, rfl⟩
    exact ⟨k, ⟨l, hl, he⟩, hafford, rfl⟩

/-- A target whose recipe has invocations without the names of their fields. -/
def textWithoutFieldNames : String :=
  "version: \"1.0\"\nname: t\ntargets:\n  hello:\n    recipe:\n      - [greet, [Ada]]\n" ++
  "      - \x7b0: greet, 1: [Ada]\x7d\n"

/-- **More is accepted than strings and mappings with the names of fields.** A sequence, and a
mapping whose keys are numbers, are decoded as an invocation, by themselves and in a configuration. -/
theorem decode_accepts_sequence :
    let call : Executable := .invocation ⟨"greet", .positional [.string "Ada"]⟩
    let sequence := Document.read "[greet, [Ada]]"
    let mapping := Document.read "\x7b0: greet, 1: [Ada]\x7d"
    (sequence.surroundings.items? sequence.root).map List.length = some 2 ∧
    (Yaml.decode (decode maxDepth) "[greet, [Ada]]").toOption = some call ∧
    (mapping.surroundings.named? mapping.root).map (·.map Prod.fst) = some ["0", "1"] ∧
    (Yaml.decode (decode maxDepth) "\x7b0: greet, 1: [Ada]\x7d").toOption = some call ∧
    (Config.parse textWithoutFieldNames).toOption = some
      { version := "1.0", name := "t"
        targets := ⟨[("hello", { recipe := [call, call] })], by decide⟩ } := by
  decide +kernel

end Executable

end Provision
