import Provision.Proofs.Config.Mapped
import Provision.Proofs.Yaml.Loose

/-!
# What an executable says

An executable is read loosely first, and what it is made of is looked up in what has been kept.
The relations here tell which nodes say which executables, and do not speak of decoders.

> `Executable.saidBy_of_makes`: what has been decoded is what its node says.
-/

namespace Provision

open Yaml (Value Loose Decode Node Tag Mark Scalar Surroundings)
open Yaml.Decode

variable {env : Surroundings} {n : Node}

/-- Whether a node has been read loosely as a value. -/
def LooselySaidBy (env : Surroundings) (n : Node) (v : Value) : Prop :=
  ∃ l, Makes loose env n l ∧ l.value? = some v

namespace Arguments

/-- Whether a node says arguments: a sequence by position, a mapping by name. -/
def SaidBy (env : Surroundings) (n : Node) : Arguments → Prop
  | .positional values =>
    ∃ nodes, env.items? n = some nodes ∧ List.Forall₂ (LooselySaidBy env) nodes values
  | .named values => Mapped (LooselySaidBy env) env n values

/-- The values of a kept sequence are said by its items, one by one. -/
theorem forall₂_of_values?_eq_some {nodes : List Node} {items : List Loose}
    (h : List.Forall₂ (Makes loose env) nodes items) : ∀ {values : List Value},
      Loose.values? items = some values → List.Forall₂ (LooselySaidBy env) nodes values := by
  induction h with
  | nil =>
    intro values hvalues
    obtain rfl := Option.some.inj hvalues
    exact .nil
  | cons hone _ ih =>
    intro values hvalues
    obtain ⟨v, hv, hvalues⟩ := Option.bind_eq_some_iff.mp hvalues
    obtain ⟨rest, hrest, hvalues⟩ := Option.bind_eq_some_iff.mp hvalues
    obtain rfl := Option.some.inj hvalues
    exact .cons ⟨_, hone, hv⟩ (ih hrest)

/-- The entries of a kept mapping of named arguments are said by those of the mapping. -/
theorem mapped_of_mapM_eq_some {es : List (Node × Node)} {kept : List (Loose × Loose)}
    (h : List.Forall₂ (fun e l => Makes loose env e.1 l.1 ∧ Makes loose env e.2 l.2) es kept) :
    ∀ {written : List (String × Value)},
      (kept.mapM fun e => match e.1 with
        | .string name => e.2.value?.map fun v => (name, v)
        | _ => none) = some written →
      ∃ said, (es.mapM fun e => (env.text? e.1).map fun name => (name, e.2)) = some said ∧
        List.Forall₂ (fun s w => s.1 = w.1 ∧ LooselySaidBy env s.2 w.2) said written := by
  induction h with
  | nil =>
    intro written hwritten
    obtain rfl := Option.some.inj hwritten
    exact ⟨[], rfl, .nil⟩
  | @cons e l es kept hone _ ih =>
    intro written hwritten
    rw [List.mapM_cons] at hwritten
    obtain ⟨w, hw, hwritten⟩ := Option.bind_eq_some_iff.mp hwritten
    obtain ⟨rest, hrest, hwritten⟩ := Option.bind_eq_some_iff.mp hwritten
    obtain rfl := Option.some.inj hwritten
    obtain ⟨said, hsaid, hread⟩ := ih hrest
    split at hw
    next name hname =>
      obtain ⟨v, hv, rfl⟩ := Option.map_eq_some_iff.mp hw
      refine ⟨(name, e.2) :: said, ?_, .cons ⟨rfl, _, hone.2, hv⟩ hread⟩
      rw [List.mapM_cons, text?_of_makes_loose (hname ▸ hone.1), hsaid]
      rfl
    next => simp at hw

/-- Arguments that are made of a kept node are said by that node, by position or by name. -/
theorem saidBy_of_ofLoose? {l : Loose} {a : Arguments} (h : Makes loose env n l)
    (ha : ofLoose? l = some a) : SaidBy env n a := by
  obtain ⟨n', hresolve, -, hread⟩ := makes_loose h
  unfold ofLoose? at ha
  split at ha
  · obtain ⟨m, tag, nodes, rfl, hparts⟩ := hread.of_sequence
    obtain ⟨values, hvalues, rfl⟩ := Option.map_eq_some_iff.mp ha
    exact ⟨nodes, by rw [Surroundings.items?, hresolve], forall₂_of_values?_eq_some hparts hvalues⟩
  · obtain ⟨m, tag, es, rfl, hparts⟩ := hread.of_mapping
    obtain ⟨written, hwritten, hpure⟩ := Option.bind_eq_some_iff.mp ha
    obtain rfl := Option.some.inj hpure
    obtain ⟨said, hsaid, hread⟩ := mapped_of_mapM_eq_some hparts hwritten
    refine ⟨said, written, ?_, hread, rfl⟩
    rw [Surroundings.named?, Surroundings.entries?, hresolve]
    exact hsaid
  · simp at ha

end Arguments

namespace Invocation

/-- The field that has been named by its name or by its number. -/
def fieldOf? : Loose → Option String
  | .string name => some name
  | .integer 0 false => some "recipe"
  | .integer 1 false => some "args"
  | _ => none

/-- The field that a node names when it is read loosely. -/
def fieldAt? (env : Surroundings) (key : Node) : Option String :=
  match env.resolve key with
  | some (.scalar _ tag style text) =>
    ((Scalar.ofNode tag style text).toOption.bind (Loose.ofScalar? text)).bind fieldOf?
  | _ => none

/-- Whether a node says an invocation: by its fields in order, or by a mapping with its fields. -/
inductive SaidBy (env : Surroundings) : Node → Invocation → Prop
  | recipe {m : Mark} {tag : Option Tag} {r : Node} {name : String}
      (text : StringSaidBy env r name) : SaidBy env (.sequence m tag [r]) ⟨name, .empty⟩
  | both {m : Mark} {tag : Option Tag} {r a : Node} {name : String} {args : Arguments}
      (text : StringSaidBy env r name) (said : Arguments.SaidBy env a args) :
      SaidBy env (.sequence m tag [r, a]) ⟨name, args⟩
  | fields {m : Mark} {tag : Option Tag} {es : List (Node × Node)} {name : String}
      {args : Option Arguments}
      (known : ∀ e ∈ es, ∃ name ∈ fieldNames, fieldAt? env e.1 = some name)
      (recipe : FieldRead (fieldAt? env) "recipe" (StringSaidBy env) es (some name))
      (arguments : FieldRead (fieldAt? env) "args" (Arguments.SaidBy env) es args) :
      SaidBy env (.mapping m tag es) ⟨name, args.getD .empty⟩

/-- A key names a field of an invocation before it is kept exactly when it does so afterwards. -/
theorem fieldAt?_of_makes {l : Loose} (h : Makes loose env n l) : fieldAt? env n = fieldOf? l := by
  obtain ⟨n', hresolve, -, hread⟩ := makes_loose h
  rw [fieldAt?, hresolve]
  cases hread with
  | scalar meaning kept => simp [meaning, kept, Except.toOption]
  | sequence => rfl
  | mapping => rfl

/-- What an entry that has been kept does to the fields. -/
theorem addLoose?_eq_some {f f' : Fields} {k v : Loose} (h : addLoose? f (k, v) = some f') :
    (fieldOf? k = some "recipe" ∧ f.recipe = none ∧
      ∃ r, v = .string r ∧ f' = { f with recipe := some r }) ∨
    (fieldOf? k = some "args" ∧ f.args = none ∧
      ∃ a, Arguments.ofLoose? v = some a ∧ f' = { f with args := some a }) := by
  have hrecipe : ∀ {r}, (if f.recipe.isSome then none else some { f with recipe := some r }) =
      some f' → f.recipe = none ∧ f' = { f with recipe := some r } := by
    intro r h
    split at h
    · simp at h
    next hnone => exact ⟨by simpa using hnone, (Option.some.inj h).symm⟩
  have hargs : (if f.args.isSome then none else
      (Arguments.ofLoose? v).map fun a => { f with args := some a }) = some f' →
      f.args = none ∧ ∃ a, Arguments.ofLoose? v = some a ∧ f' = { f with args := some a } := by
    intro h
    split at h
    · simp at h
    next hnone =>
      obtain ⟨a, ha, hf⟩ := Option.map_eq_some_iff.mp h
      exact ⟨by simpa using hnone, a, ha, hf.symm⟩
  unfold addLoose? at h
  -- a field may be named by its name or by its number
  split at h
  next hk hv => exact Or.inl ⟨congrArg fieldOf? hk, (hrecipe h).1, _, hv, (hrecipe h).2⟩
  next hk hv => exact Or.inl ⟨congrArg fieldOf? hk, (hrecipe h).1, _, hv, (hrecipe h).2⟩
  next hk => exact Or.inr ⟨congrArg fieldOf? hk, hargs h⟩
  next hk => exact Or.inr ⟨congrArg fieldOf? hk, hargs h⟩
  next => simp at h

/-- Whether an entry that has been kept takes the fields from one state to another. -/
def KeptStep (env : Surroundings) (f : Fields) (k v : Node) (f' : Fields) : Prop :=
  ∃ k' v', Makes loose env k k' ∧ Makes loose env v v' ∧ addLoose? f (k', v') = some f'

/-- Gathering the kept entries of an invocation gathers the entries themselves. -/
theorem gathers_of_foldlM_eq_some {es : List (Node × Node)} {kept : List (Loose × Loose)}
    (h : List.Forall₂ (fun e l => Makes loose env e.1 l.1 ∧ Makes loose env e.2 l.2) es kept) :
    ∀ {f f' : Fields}, kept.foldlM addLoose? f = some f' → Gathers (KeptStep env) f es f' := by
  induction h with
  | nil =>
    intro f f' hf
    obtain rfl := Option.some.inj hf
    exact .done f
  | cons hone _ ih =>
    intro f f' hf
    rw [List.foldlM_cons] at hf
    obtain ⟨next, hnext, hf⟩ := Option.bind_eq_some_iff.mp hf
    exact .next ⟨_, _, hone.1, hone.2, hnext⟩ (ih hf)

/-- A kept entry of an invocation gives its recipe or its arguments. -/
theorem keptStep_fields {f f' : Fields} {k v : Node} (h : KeptStep env f k v f') :
    (∃ name ∈ fieldNames, fieldAt? env k = some name) ∧
    FieldStep (fieldAt? env) "recipe" (StringSaidBy env) k v f.recipe f'.recipe ∧
    FieldStep (fieldAt? env) "args" (Arguments.SaidBy env) k v f.args f'.args := by
  obtain ⟨k', v', hk, hv, hadd⟩ := h
  have hname := fieldAt?_of_makes hk
  rcases addLoose?_eq_some hadd with ⟨hfield, hnone, r, rfl, rfl⟩ | ⟨hfield, hnone, a, ha, rfl⟩
  · rw [hfield] at hname
    exact ⟨⟨_, by decide, hname⟩, .given hname hnone (text?_of_makes_loose hv),
      .other hname (by decide)⟩
  · rw [hfield] at hname
    exact ⟨⟨_, by decide, hname⟩, .other hname (by decide),
      .given hname hnone (Arguments.saidBy_of_ofLoose? hv ha)⟩

/-- An invocation that is made of a kept node is said by that node. -/
theorem saidBy_of_ofLoose? {l : Loose} {i : Invocation} (h : Makes loose env n l)
    (hi : ofLoose? l = some i) : ∃ n', env.resolve n = some n' ∧ SaidBy env n' i := by
  obtain ⟨n', hresolve, -, hread⟩ := makes_loose h
  refine ⟨n', hresolve, ?_⟩
  unfold ofLoose? at hi
  split at hi
  next r =>
    obtain ⟨m, tag, nodes, rfl, hparts⟩ := hread.of_sequence
    obtain ⟨_, _, hr, hnil, rfl⟩ := List.forall₂_cons_right_iff.mp hparts
    obtain rfl := List.forall₂_nil_right_iff.mp hnil
    obtain rfl := Option.some.inj hi
    exact .recipe (text?_of_makes_loose hr)
  next r a =>
    obtain ⟨m, tag, nodes, rfl, hparts⟩ := hread.of_sequence
    obtain ⟨_, _, hr, hrest, rfl⟩ := List.forall₂_cons_right_iff.mp hparts
    obtain ⟨_, _, ha, hnil, rfl⟩ := List.forall₂_cons_right_iff.mp hrest
    obtain rfl := List.forall₂_nil_right_iff.mp hnil
    obtain ⟨args, hargs, rfl⟩ := Option.map_eq_some_iff.mp hi
    exact .both (text?_of_makes_loose hr) (Arguments.saidBy_of_ofLoose? ha hargs)
  next kept =>
    obtain ⟨m, tag, es, rfl, hparts⟩ := hread.of_mapping
    obtain ⟨f, hf, hi⟩ := Option.bind_eq_some_iff.mp hi
    obtain ⟨name, hname, hi⟩ := Option.bind_eq_some_iff.mp hi
    obtain rfl := Option.some.inj hi
    have hsteps := gathers_of_foldlM_eq_some hparts hf
    have hrecipe := hsteps.field Fields.recipe (fun h => (keptStep_fields h).2.1) rfl
    exact .fields (hsteps.forall_mem fun h => (keptStep_fields h).1) (hname ▸ hrecipe)
      (hsteps.field Fields.args (fun h => (keptStep_fields h).2.2) rfl)
  next => simp at hi

end Invocation

namespace Executable

/-- Whether a node says an executable: a scalar a command, a collection an invocation. -/
def SaidBy (env : Surroundings) (n : Node) : Executable → Prop
  | .command s => StringSaidBy env n s
  | .invocation i => ∃ n', env.resolve n = some n' ∧ Invocation.SaidBy env n' i

/-- A command or invocation that is read from a node is said by that node. -/
theorem saidBy_of_makes {e : Executable} (h : Makes decode env n e) : SaidBy env n e := by
  obtain ⟨depth, path, h⟩ := h
  obtain ⟨l, hl, h⟩ := reads_bind h
  have hl : Makes loose env n l := ⟨depth, path, hl⟩
  split at h
  next he =>
    obtain rfl := reads_pure h
    unfold ofLoose? at he
    split at he
    · obtain rfl := Option.some.inj he
      exact text?_of_makes_loose hl
    · obtain ⟨i, hi, rfl⟩ := Option.map_eq_some_iff.mp he
      exact Invocation.saidBy_of_ofLoose? hl hi
  next => exact absurd h not_reads_complain

/-- Whether executables are those of a sequence. -/
def ListSaidBy (env : Surroundings) (n : Node) (l : List Executable) : Prop :=
  ∃ nodes, env.items? n = some nodes ∧ List.Forall₂ (SaidBy env) nodes l

/-- The steps of a list are said by the items, one by one. -/
theorem listSaidBy_of_makes {l : List Executable} (h : Makes (sequence decode) env n l) :
    ListSaidBy env n l := by
  obtain ⟨depth, path, h⟩ := h
  obtain ⟨nodes, inner, hnodes, -, hread⟩ := reads_sequence h
  exact ⟨nodes, hnodes, hread.imp fun _ _ h => saidBy_of_makes ⟨inner, h⟩⟩

end Executable

end Provision
