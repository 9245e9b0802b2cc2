import Provision.Proofs.Config.Accepted
import Provision.Proofs.Config.Grammar
import Provision.Proofs.Yaml.Determinate

/-!
# Strict keys

The mapping of a declaration has names of fields as its keys and none of them twice, so that
nothing in it is passed over: what it says of a field is the value of the field. A field is left out
if it is not there or null, except for those that are a text, which take the text of any scalar. No
decoder is in these relations but that of free values, and a node says one declaration at most.

> `Config.parse_strict`: an accepted text is strict, and says no other configuration;
> `Config.parse_keeps_null`: a null that is not left out.
-/

namespace Provision

open Yaml (Document Node Surroundings)
open Yaml.Decode

variable {α : Type} {env : Surroundings} {n m : Node} {name : String}

/-! ## Fields -/

/-- Whether the keys of a mapping are names of fields, none of which is there twice. -/
def KeysStrict (env : Surroundings) (known : List String) (n : Node) : Prop :=
  ∃ es, env.entries? n = some es ∧
    (∀ e ∈ es, ∃ name ∈ known, env.fieldName? e.1 = some name) ∧
    (es.map fun e => env.fieldName? e.1).Nodup

/-- What a mapping makes of a field: what its value says, and if it is not there or null, what
stands in for a field that is left out. -/
inductive FieldSays (env : Surroundings) (n : Node) (name : String) (P : Node → α → Prop)
    (absent : α) : α → Prop
  | missing (unnamed : env.field? n name = none) : FieldSays env n name P absent absent
  | null {m : Node} (named : env.field? n name = some m) (null : env.isNull m = true) :
      FieldSays env n name P absent absent
  | given {m : Node} {x : α} (named : env.field? n name = some m) (value : env.isNull m = false)
      (said : P m x) : FieldSays env n name P absent x

/-- What a mapping makes of a field that is a text: the text of its scalar, whatever that means, and
if it is not there, what stands in for it unless it is required. -/
inductive TextSays (env : Surroundings) (n : Node) (name : String) (absent : Option String) :
    String → Prop
  | missing {s : String} (unnamed : env.field? n name = none) (default : absent = some s) :
      TextSays env n name absent s
  | given {m : Node} {s : String} (named : env.field? n name = some m)
      (text : env.text? m = some s) : TextSays env n name absent s

/-- What a node that is not null says of something that may be left out. -/
def Present (env : Surroundings) (P : Node → α → Prop) (n : Node) (o : Option α) : Prop :=
  ∃ n' x, env.resolve n = some n' ∧ P n' x ∧ o = some x

/-! ## Executables -/

namespace Executable

/-- Whether the content of a node is an executable. -/
def HeldBy (env : Surroundings) (n : Node) (e : Executable) : Prop :=
  ∃ depth l k, Yaml.Decode.Holds env depth n l k ∧ Form l e

/-- Whether the items of a node are executables. -/
def ListHeldBy (env : Surroundings) (n : Node) (l : List Executable) : Prop :=
  ∃ nodes, env.items? n = some nodes ∧ List.Forall₂ (HeldBy env) nodes l

/-- A command or invocation that is read is held by its node. -/
theorem heldBy_of_makes {e : Executable} (h : Makes decode env n e) : HeldBy env n e := by
  obtain ⟨depth, path, before, after, h⟩ := h
  obtain ⟨k, ⟨l, hl, he⟩, -, -⟩ := (decode_exactly depth ⟨n, path⟩ before e after).mp h
  exact ⟨depth, l, k, hl, he⟩

/-- The steps of a list are held by the items, one by one. -/
theorem listHeldBy_of_makes {l : List Executable} (h : Makes (sequence decode) env n l) :
    ListHeldBy env n l := by
  obtain ⟨depth, path, h⟩ := h
  obtain ⟨nodes, inner, hnodes, -, hread⟩ := reads_sequence h
  exact ⟨nodes, hnodes, hread.imp fun _ _ h => heldBy_of_makes ⟨inner, h⟩⟩

/-- A node holds one command or invocation at most. -/
theorem heldBy_rightUnique : Relator.RightUnique (HeldBy env) := by
  rintro n e e' ⟨_, l, _, hl, he⟩ ⟨_, l', _, hl', he'⟩
  obtain rfl := hl.unique hl'
  exact Option.some.inj ((ofLoose?_eq_some_iff.mpr he).symm.trans (ofLoose?_eq_some_iff.mpr he'))

end Executable

/-! ## Declarations -/

/-- What a node says of a target, with no key of it left over. -/
structure TargetDeclaration.Says (env : Surroundings) (n : Node) (t : TargetDeclaration) :
    Prop where
  keys : KeysStrict env fieldNames n
  dependsOn : FieldSays env n "depends_on" (StringsSaidBy env) [] t.dependsOn
  setup : FieldSays env n "setup" (Executable.ListHeldBy env) [] t.setup
  recipe : FieldSays env n "recipe" (Executable.ListHeldBy env) [] t.recipe
  check : FieldSays env n "check" (Present env (Executable.HeldBy env)) none t.check

/-- What a node says of a recipe, with no key of it left over. -/
structure RecipeDeclaration.Says (env : Surroundings) (n : Node) (r : RecipeDeclaration) :
    Prop where
  keys : KeysStrict env fieldNames n
  description : FieldSays env n "description" (Present env (StringSaidBy env)) none r.description
  params : FieldSays env n "params" (StringsSaidBy env) [] r.params
  defaults : FieldSays env n "defaults" (Mapped (Makes value env) env) ∅ r.defaults
  check : FieldSays env n "check" (Present env (StringSaidBy env)) none r.check
  setup : FieldSays env n "setup" (Executable.ListHeldBy env) [] r.setup

/-- What a node says of a configuration, with no key of it left over. -/
structure Config.Says (env : Surroundings) (n : Node) (c : Config) : Prop where
  keys : KeysStrict env fieldNames n
  version : TextSays env n "version" none c.version
  name : TextSays env n "name" none c.name
  description : FieldSays env n "description" (Present env (StringSaidBy env)) none c.description
  shell : TextSays env n "shell" (some "sh") c.shell
  recipes : FieldSays env n "recipes" (Mapped (RecipeDeclaration.Says env) env) ∅ c.recipes
  targets : FieldSays env n "targets" (Mapped (TargetDeclaration.Says env) env) ∅ c.targets

/-! ## What has been decoded -/

section Read

variable {es : List (Node × Node)} {known : List String} {P Q : Node → α → Prop} {o : Option α}

/-- A field that is read is not given twice. -/
theorem Yaml.Decode.FieldRead.count_le_one (h : FieldRead env.fieldName? name P es o) :
    (es.map fun e => env.fieldName? e.1).count (some name) ≤ 1 := by
  have hzero : ∀ l : List (Node × Node), (∀ e ∈ l, env.fieldName? e.1 ≠ some name) →
      (l.map fun e => env.fieldName? e.1).count (some name) = 0 := by
    intro l hl
    rw [List.count_eq_zero]
    intro hmem
    obtain ⟨e, he, hname⟩ := List.mem_map.mp hmem
    exact hl e he hname
  cases h with
  | absent unnamed => exact Nat.le_of_eq (hzero es unnamed) |>.trans (Nat.zero_le 1)
  | present split named once reads =>
    obtain ⟨hformer, hlater⟩ := List.forall_mem_append.mp once
    rw [split, List.map_append, List.map_cons, List.count_append, hzero _ hformer, named,
      List.count_cons_self, hzero _ hlater]

/-- The keys of a mapping are strict when each is known and none occurs twice. -/
theorem keysStrict_of_count (hes : env.entries? n = some es)
    (hknown : ∀ e ∈ es, ∃ name ∈ known, env.fieldName? e.1 = some name)
    (hcount : ∀ name ∈ known, (es.map fun e => env.fieldName? e.1).count (some name) ≤ 1) :
    KeysStrict env known n := by
  refine ⟨es, hes, hknown, List.nodup_iff_count_le_one.mpr fun key => ?_⟩
  -- a key that is there names a field that is known, and any other one has no count
  by_cases hkey : key ∈ es.map fun e => env.fieldName? e.1
  · obtain ⟨e, he, rfl⟩ := List.mem_map.mp hkey
    obtain ⟨name, hname, hkey⟩ := hknown e he
    rw [hkey]
    exact hcount name hname
  · rw [List.count_eq_zero_of_not_mem hkey]
    exact Nat.zero_le 1

/-- A field is absent, or it is given and read. -/
theorem Yaml.Decode.FieldRead.field?_cases (h : FieldRead env.fieldName? name P es o)
    (hes : env.entries? n = some es) :
    (env.field? n name = none ∧ o = none) ∨
    ∃ m x, env.field? n name = some m ∧ P m x ∧ o = some x := by
  cases hfield : env.field? n name with
  | some m =>
    obtain ⟨x, hx, ho⟩ := h.of_field? hes hfield
    exact Or.inr ⟨m, x, rfl, hx, ho⟩
  | none =>
    rw [Surroundings.field?, hes] at hfield
    have hunnamed := List.find?_eq_none.mp (Option.map_eq_none_iff.mp hfield)
    cases h with
    | absent => exact Or.inl ⟨rfl, rfl⟩
    | @present _ _ k v _ split named =>
      exact absurd (beq_iff_eq.mpr named) (hunnamed (k, v) (by simp [split]))

/-- A field that has been read is what the mapping says of it, if a null stands for nothing. -/
theorem Yaml.Decode.FieldRead.fieldSays (h : FieldRead env.fieldName? name P es o)
    (hes : env.entries? n = some es) {absent : α}
    (hnull : ∀ {m x}, P m x → env.isNull m = true → x = absent)
    (hvalue : ∀ {m x}, P m x → env.isNull m = false → Q m x) :
    FieldSays env n name Q absent (o.getD absent) := by
  rcases h.field?_cases hes with ⟨hfield, rfl⟩ | ⟨m, x, hfield, hx, rfl⟩
  · exact .missing hfield
  · cases hm : env.isNull m with
    | true =>
      obtain rfl := hnull hx hm
      exact .null hfield hm
    | false => exact .given hfield hm (hvalue hx hm)

/-- A text that has been read is what the mapping says of it. -/
theorem Yaml.Decode.FieldRead.textSays {o : Option String}
    (h : FieldRead env.fieldName? name (Makes (fun _ => string "a string") env) es o)
    (hes : env.entries? n = some es) {absent : Option String} {s : String}
    (hs : o.or absent = some s) : TextSays env n name absent s := by
  rcases h.field?_cases hes with ⟨hfield, rfl⟩ | ⟨m, x, hfield, hx, rfl⟩
  · exact .missing hfield hs
  · obtain rfl := Option.some.inj hs
    exact .given hfield (stringSaidBy_of_makes hx)

/-- A node that is null has no items, so a list that is read from it is empty. -/
theorem eq_nil_of_isNull {Item : Node → α → Prop} {l : List α} {nodes : List Node}
    (hnodes : env.items? n = some nodes) (hread : List.Forall₂ Item nodes l)
    (hnull : env.isNull n = true) : l = [] := by
  obtain ⟨m, tag, text, hscalar, -⟩ := spelt_of_isNull hnull
  have hitems : env.items? n = if isBlank .plain text then some [] else none := by
    rw [Surroundings.items?, hscalar]
  rw [hitems] at hnodes
  split at hnodes
  · obtain rfl := Option.some.inj hnodes
    exact List.forall₂_nil_left_iff.mp hread
  · cases hnodes

/-- A node that is null has no entries. -/
theorem named?_of_isNull (hnull : env.isNull n = true) {said : List (String × Node)}
    (h : env.named? n = some said) : said = [] := by
  obtain ⟨m, tag, text, hscalar, -⟩ := spelt_of_isNull hnull
  obtain ⟨es, hes, hsaid⟩ := Option.bind_eq_some_iff.mp h
  have hentries : env.entries? n = if isBlank .plain text then some [] else none := by
    rw [Surroundings.entries?, hscalar]
  rw [hentries] at hes
  split at hes
  · obtain rfl := Option.some.inj hes
    exact (Option.some.inj hsaid).symm
  · cases hes

/-- A mapping that is null is read as the empty registry. -/
theorem Mapped.eq_empty_of_isNull {Item : Node → α → Prop} {r : Registry α}
    (h : Mapped Item env n r) (hnull : env.isNull n = true) : r = ∅ := by
  obtain ⟨said, written, hsaid, hread, rfl⟩ := h
  obtain rfl := named?_of_isNull hnull hsaid
  obtain rfl := List.forall₂_nil_left_iff.mp hread
  rfl

/-- Every entry of a field that is a mapping has been read to something. -/
theorem FieldSays.forall_said {Item : Node → α → Prop} {r : Registry α}
    (h : FieldSays env n name (Mapped Item env) ∅ r) (hm : env.field? n name = some m)
    {said : List (String × Node)} (hsaid : env.named? m = some said) :
    ∀ s ∈ said, ∃ x, Item s.2 x := by
  cases h with
  | missing hfield => exact nomatch hfield.symm.trans hm
  | null hfield hnull =>
    obtain rfl := Option.some.inj (hfield.symm.trans hm)
    simp [named?_of_isNull hnull hsaid]
  | given hfield _ hr =>
    obtain rfl := Option.some.inj (hfield.symm.trans hm)
    exact hr.forall_said hsaid

/-- An optional value that is there is read as its kind. -/
theorem present_of_makes {present : Nat → Target → Yaml.Decode α}
    (hP : ∀ {m x}, Makes present env m x → P m x)
    (h : Makes (fun depth => option (present depth)) env n o) (hvalue : env.isNull n = false) :
    Present env P n o := by
  obtain ⟨depth, path, h⟩ := h
  rcases reads_option h with ⟨hnull, -⟩ | ⟨-, n', x, hresolve, hx, rfl⟩
  · exact absurd hnull (by simp [hvalue])
  · exact ⟨n', x, hresolve, hP ⟨depth, hx⟩, rfl⟩

/-- An optional value that is null is absent. -/
theorem eq_none_of_isNull {present : Nat → Target → Yaml.Decode α}
    (h : Makes (fun depth => option (present depth)) env n o) (hnull : env.isNull n = true) :
    o = none := by
  obtain ⟨depth, path, h⟩ := h
  rcases reads_option h with ⟨-, rfl⟩ | ⟨hvalue, -⟩
  · rfl
  · exact absurd hvalue (by simp [hnull])

end Read

section Fields

variable {es : List (Node × Node)} (hes : env.entries? n = some es)

include hes

/-- What a field for a list of strings makes of its node. -/
theorem says_strings {o : Option (List String)}
    (h : FieldRead env.fieldName? name (Makes strings env) es o) :
    FieldSays env n name (StringsSaidBy env) [] (o.getD []) := by
  refine h.fieldSays hes (fun hx hnull => ?_) fun hx _ => stringsSaidBy_of_makes hx
  obtain ⟨nodes, hnodes, hread⟩ := stringsSaidBy_of_makes hx
  exact eq_nil_of_isNull hnodes hread hnull

/-- What a field for a list of commands and invocations makes of its node. -/
theorem says_executables {o : Option (List Executable)}
    (h : FieldRead env.fieldName? name (Makes (sequence Executable.decode) env) es o) :
    FieldSays env n name (Executable.ListHeldBy env) [] (o.getD []) := by
  refine h.fieldSays hes (fun hx hnull => ?_) fun hx _ => Executable.listHeldBy_of_makes hx
  obtain ⟨nodes, hnodes, hread⟩ := Executable.listHeldBy_of_makes hx
  exact eq_nil_of_isNull hnodes hread hnull

/-- What an optional field makes of its node. -/
theorem says_option {present : Nat → Target → Yaml.Decode α} {P : Node → α → Prop}
    {o : Option (Option α)} (hP : ∀ {m x}, Makes present env m x → P m x)
    (h : FieldRead env.fieldName? name (Makes (fun depth => option (present depth)) env) es o) :
    FieldSays env n name (Present env P) none (o.getD none) :=
  h.fieldSays hes eq_none_of_isNull (present_of_makes hP)

/-- What a field for named things makes of its node. -/
theorem says_registry {item : Nat → Target → Yaml.Decode α} {P : Node → α → Prop}
    {o : Option (Registry α)} (hP : ∀ {m x}, Makes item env m x → P m x)
    (h : FieldRead env.fieldName? name (Makes (registry item) env) es o) :
    FieldSays env n name (Mapped P env) ∅ (o.getD ∅) :=
  h.fieldSays hes (fun hx => (mapped_of_makes hx).eq_empty_of_isNull)
    fun hx _ => (mapped_of_makes hx).imp hP

end Fields

/-- A target that is read says what its fields say. -/
theorem TargetDeclaration.Says.of_makes {t : TargetDeclaration} (h : Makes decode env n t) :
    Says env n t := by
  obtain ⟨es, f, hes, hmade, rfl⟩ := fieldsMade_of_makes h
  have hcount : ∀ name ∈ fieldNames,
      (es.map fun e => env.fieldName? e.1).count (some name) ≤ 1 := by
    simp only [fieldNames, List.forall_mem_cons]
    exact ⟨hmade.dependsOn.count_le_one, hmade.setup.count_le_one, hmade.recipe.count_le_one,
      hmade.check.count_le_one, by simp⟩
  exact {
    keys := keysStrict_of_count hes hmade.known hcount
    dependsOn := says_strings hes hmade.dependsOn
    setup := says_executables hes hmade.setup
    recipe := says_executables hes hmade.recipe
    check := says_option hes Executable.heldBy_of_makes hmade.check }

/-- A recipe that is read says what its fields say. -/
theorem RecipeDeclaration.Says.of_makes {r : RecipeDeclaration} (h : Makes decode env n r) :
    Says env n r := by
  obtain ⟨es, f, hes, hmade, rfl⟩ := fieldsMade_of_makes h
  have hcount : ∀ name ∈ fieldNames,
      (es.map fun e => env.fieldName? e.1).count (some name) ≤ 1 := by
    simp only [fieldNames, List.forall_mem_cons]
    exact ⟨hmade.description.count_le_one, hmade.params.count_le_one, hmade.defaults.count_le_one,
      hmade.check.count_le_one, hmade.setup.count_le_one, by simp⟩
  exact {
    keys := keysStrict_of_count hes hmade.known hcount
    description := says_option hes stringSaidBy_of_makes hmade.description
    params := says_strings hes hmade.params
    defaults := says_registry hes id hmade.defaults
    check := says_option hes stringSaidBy_of_makes hmade.check
    setup := says_executables hes hmade.setup }

/-- A configuration that is read says what its fields say. -/
theorem Config.Says.of_makes {c : Config} (h : Makes decode env n c) : Says env n c := by
  obtain ⟨es, f, hes, hmade, hversion, hname, hdescription, hshell, hrecipes, htargets⟩ :=
    fieldsMade_of_makes h
  have hcount : ∀ name ∈ fieldNames,
      (es.map fun e => env.fieldName? e.1).count (some name) ≤ 1 := by
    simp only [fieldNames, List.forall_mem_cons]
    exact ⟨hmade.version.count_le_one, hmade.name.count_le_one, hmade.description.count_le_one,
      hmade.shell.count_le_one, hmade.recipes.count_le_one, hmade.targets.count_le_one, by simp⟩
  exact {
    keys := keysStrict_of_count hes hmade.known hcount
    version := hmade.version.textSays hes (by rw [hversion]; rfl)
    name := hmade.name.textSays hes (by rw [hname]; rfl)
    description := hdescription ▸ says_option hes stringSaidBy_of_makes hmade.description
    shell := hmade.shell.textSays hes (by rw [hshell]; cases f.shell <;> rfl)
    recipes := hrecipes ▸ says_registry hes RecipeDeclaration.Says.of_makes hmade.recipes
    targets := htargets ▸ says_registry hes TargetDeclaration.Says.of_makes hmade.targets }

/-! ## What is said is determined -/

section Unique

variable {P Item : Node → α → Prop} {absent : α}

/-- A field says one thing at most, provided that its values do. -/
theorem FieldSays.unique (hP : Relator.RightUnique P) {x y : α}
    (h : FieldSays env n name P absent x) (h' : FieldSays env n name P absent y) : x = y := by
  cases h with
  | missing hfield =>
    cases h' with
    | missing => rfl
    | null => rfl
    | given hfield' => exact nomatch hfield.symm.trans hfield'
  | null hfield hnull =>
    cases h' with
    | missing => rfl
    | null => rfl
    | given hfield' hvalue =>
      obtain rfl := Option.some.inj (hfield.symm.trans hfield')
      exact absurd hnull (by simp [hvalue])
  | given hfield hvalue hx =>
    cases h' with
    | missing hfield' => exact nomatch hfield.symm.trans hfield'
    | null hfield' hnull =>
      obtain rfl := Option.some.inj (hfield.symm.trans hfield')
      exact absurd hnull (by simp [hvalue])
    | given hfield' _ hy =>
      obtain rfl := Option.some.inj (hfield.symm.trans hfield')
      exact hP hx hy

/-- A field for a text says one text at most. -/
theorem TextSays.unique {default : Option String} {s s' : String}
    (h : TextSays env n name default s) (h' : TextSays env n name default s') : s = s' := by
  cases h with
  | missing hfield hs =>
    cases h' with
    | missing _ hs' => exact Option.some.inj (hs.symm.trans hs')
    | given hfield' => exact nomatch hfield.symm.trans hfield'
  | given hfield hs =>
    cases h' with
    | missing hfield' => exact nomatch hfield.symm.trans hfield'
    | given hfield' hs' =>
      obtain rfl := Option.some.inj (hfield.symm.trans hfield')
      exact Option.some.inj (hs.symm.trans hs')

theorem stringSaidBy_rightUnique : Relator.RightUnique (StringSaidBy env) :=
  fun _ _ _ h h' => Option.some.inj (h.symm.trans h')

/-- What is read item by item is determined, if each item is. -/
theorem rightUnique_items (hItem : Relator.RightUnique Item) :
    Relator.RightUnique fun n (l : List α) =>
      ∃ nodes, env.items? n = some nodes ∧ List.Forall₂ Item nodes l := by
  rintro n l l' ⟨nodes, hnodes, hread⟩ ⟨nodes', hnodes', hread'⟩
  obtain rfl := Option.some.inj (hnodes.symm.trans hnodes')
  exact List.right_unique_forall₂' hItem hread hread'

/-- An optional value is determined when the value is. -/
theorem present_rightUnique (hP : Relator.RightUnique P) : Relator.RightUnique (Present env P) := by
  rintro n o o' ⟨m, x, hm, hx, rfl⟩ ⟨m', x', hm', hx', rfl⟩
  obtain rfl := Option.some.inj (hm.symm.trans hm')
  rw [hP hx hx']

/-- A registry is determined when its values are. -/
theorem mapped_rightUnique (hItem : Relator.RightUnique Item) :
    Relator.RightUnique (Mapped Item env) := by
  rintro n r r' ⟨said, written, hsaid, hread, rfl⟩ ⟨said', written', hsaid', hread', rfl⟩
  obtain rfl := Option.some.inj (hsaid.symm.trans hsaid')
  have hentry : Relator.RightUnique fun (s : String × Node) (w : String × α) =>
      s.1 = w.1 ∧ Item s.2 w.2 :=
    fun _ _ _ h h' => Prod.ext (h.1.symm.trans h'.1) (hItem h.2 h'.2)
  rw [List.right_unique_forall₂' hentry hread hread']

end Unique

/-- A node says one target at most. -/
theorem TargetDeclaration.Says.unique : Relator.RightUnique (Says env) := by
  rintro n ⟨dependsOn, setup, recipe, check⟩ ⟨dependsOn', setup', recipe', check'⟩ h h'
  have hexecutables : Relator.RightUnique (Executable.ListHeldBy env) :=
    rightUnique_items Executable.heldBy_rightUnique
  obtain rfl : dependsOn = dependsOn' :=
    h.dependsOn.unique (rightUnique_items stringSaidBy_rightUnique) h'.dependsOn
  obtain rfl : setup = setup' := h.setup.unique hexecutables h'.setup
  obtain rfl : recipe = recipe' := h.recipe.unique hexecutables h'.recipe
  obtain rfl : check = check' :=
    h.check.unique (present_rightUnique Executable.heldBy_rightUnique) h'.check
  rfl

/-- A node says one recipe at most. -/
theorem RecipeDeclaration.Says.unique : Relator.RightUnique (Says env) := by
  rintro n ⟨description, params, defaults, check, setup⟩
    ⟨description', params', defaults', check', setup'⟩ h h'
  have htext : Relator.RightUnique (Present env (StringSaidBy env)) :=
    present_rightUnique stringSaidBy_rightUnique
  obtain rfl : description = description' := h.description.unique htext h'.description
  obtain rfl : params = params' :=
    h.params.unique (rightUnique_items stringSaidBy_rightUnique) h'.params
  obtain rfl : defaults = defaults' :=
    h.defaults.unique (mapped_rightUnique value_rightUnique) h'.defaults
  obtain rfl : check = check' := h.check.unique htext h'.check
  obtain rfl : setup = setup' :=
    h.setup.unique (rightUnique_items Executable.heldBy_rightUnique) h'.setup
  rfl

/-- **A node says one configuration at most.** -/
theorem Config.Says.unique : Relator.RightUnique (Says env) := by
  rintro n ⟨version, name, description, shell, recipes, targets⟩
    ⟨version', name', description', shell', recipes', targets'⟩ h h'
  obtain rfl : version = version' := h.version.unique h'.version
  obtain rfl : name = name' := h.name.unique h'.name
  obtain rfl : description = description' :=
    h.description.unique (present_rightUnique stringSaidBy_rightUnique) h'.description
  obtain rfl : shell = shell' := h.shell.unique h'.shell
  obtain rfl : recipes = recipes' :=
    h.recipes.unique (mapped_rightUnique RecipeDeclaration.Says.unique) h'.recipes
  obtain rfl : targets = targets' :=
    h.targets.unique (mapped_rightUnique TargetDeclaration.Says.unique) h'.targets
  rfl

/-! ## Accepted texts -/

namespace Config

variable {text : String} {c : Config}

/-- **Keys are strict.** The configuration that a text declares is what the root of its document
says, and each declaration in it is what its own mapping says: the keys are names of fields and none
is there twice; what is said of a field is its value, item by item and entry by entry in the order
of the document; a field is left out only if it is missing or null, and `version`, `name` and
`shell` only if they are missing. All declarations are meant, also one that a later one of its name
replaces, and no other configuration is said by the root. -/
theorem parse_strict (h : parse text = .ok c) :
    let env := (Document.read text).surroundings
    let root := (Document.read text).root
    Says env root c ∧ (∀ c', Says env root c' → c' = c) ∧
    (∀ m said, env.field? root "targets" = some m → env.named? m = some said →
      ∀ s ∈ said, ∃ t, TargetDeclaration.Says env s.2 t) ∧
    (∀ m said, env.field? root "recipes" = some m → env.named? m = some said →
      ∀ s ∈ said, ∃ r, RecipeDeclaration.Says env s.2 r) := by
  intro env root
  have hdeclared : Says env root c := Says.of_makes (makes_of_parse h)
  exact ⟨hdeclared, fun c' h' => Says.unique h' hdeclared,
    fun m said hm hsaid => hdeclared.targets.forall_said hm hsaid,
    fun m said hm hsaid => hdeclared.recipes.forall_said hm hsaid⟩

/-- A text with each kind of declaration, and with a field that is null. -/
def textWithDeclarations : String :=
  "version: 1\nname: t\nrecipes:\n  greet:\n    params: [who]\n    setup: [echo]\n" ++
  "targets:\n  hello:\n    depends_on: []\n    check:\n" ++
  "    recipe: [\x7brecipe: greet, args: [Ada]\x7d]\n"

/-- A document with every kind of declaration, and what it says. -/
theorem parse_strict_declarations :
    let env := (Document.read textWithDeclarations).surroundings
    let root := (Document.read textWithDeclarations).root
    let greet : RecipeDeclaration := { params := ["who"], setup := [.command "echo"] }
    let hello : TargetDeclaration :=
      { recipe := [.invocation ⟨"greet", .positional [.string "Ada"]⟩] }
    ∃ c, c = { version := "1", name := "t", recipes := ⟨[("greet", greet)], by decide⟩
               targets := ⟨[("hello", hello)], by decide⟩ } ∧
      parse textWithDeclarations = .ok c ∧ Says env root c ∧ ∀ c', Says env root c' → c' = c := by
  intro env root greet hello
  have hparse : (parse textWithDeclarations).toOption = some
      { version := "1", name := "t", recipes := ⟨[("greet", greet)], by decide⟩
        targets := ⟨[("hello", hello)], by decide⟩ } := by
    decide +kernel
  have hparse := eq_ok_of_toOption_eq_some hparse
  exact ⟨_, rfl, hparse, (parse_strict hparse).1, (parse_strict hparse).2.1⟩

/-- A text whose shell is null. -/
def textWithNullShell : String := "version: \"1.0\"\nname: t\nshell:\n"

/-- **A null may be kept.** The shell of the text is null, but it is not left out: it is the empty
text, and not the one that stands in for it. -/
theorem parse_keeps_null :
    let env := (Document.read textWithNullShell).surroundings
    let root := (Document.read textWithNullShell).root
    ∃ c, parse textWithNullShell = .ok c ∧ c.shell = "" ∧
      (env.field? root "shell").map env.isNull = some true ∧
      (parse "version: \"1.0\"\nname: t\n").toOption = some { c with shell := "sh" } ∧
      ¬ FieldSays env root "shell" (StringSaidBy env) "sh" c.shell := by
  intro env root
  have hparse : (parse textWithNullShell).toOption =
      some { version := "1.0", name := "t", shell := "" } := by
    decide +kernel
  have hnull : (env.field? root "shell").map env.isNull = some true := by decide +kernel
  have hwithout : (parse "version: \"1.0\"\nname: t\n").toOption =
      some { version := "1.0", name := "t", shell := "sh" } := by
    decide +kernel
  refine ⟨_, eq_ok_of_toOption_eq_some hparse, rfl, hnull, hwithout, fun hdeclared => ?_⟩
  generalize hshell : "" = shell at hdeclared
  cases hdeclared with
  | missing => exact absurd hshell (by decide)
  | null => exact absurd hshell (by decide)
  | given hfield hvalue => simp [hfield, hvalue] at hnull

end Config

end Provision
