import Provision.Proofs.Recipe.Binding

/-!
# The result of binding arguments

Where no parameter is declared twice, what comes of arguments is fixed by what they supply. They are
refused if there are too many of them or if one has a name that is no parameter; else the first
parameter without a value and without a default is missing; else each parameter is bound, in order.
So values by position and the same values by name come to the same, in whatever order the names are
written.

> `fill_eq_error_iff`: what is missing is the first parameter that nothing is known of;
> `bind_eq_iff`: the result of binding, errors included;
> `bind_exact`: the same, with the agreement of both kinds of arguments and the texts of defaults.
-/

namespace Provision

open Yaml (Value)

/-! ## What arguments come to -/

/-- Whether arguments go with parameters: no more values than places, or no name but theirs. -/
inductive Arguments.Fit (params : List String) : Arguments → Prop
  | positional {values : List Value} (few : values.length ≤ params.length) :
      Fit params (.positional values)
  | named {values : Registry Value} (known : ∀ k ∈ values.keys, k ∈ params) :
      Fit params (.named values)

namespace Recipe

/-- The text that a parameter is bound to: that of a value that is supplied for it, or else its
default. -/
inductive BoundTo (r : Recipe) (a : Arguments) (p : String) : String → Prop
  | supplied {v : Value} (value : a.Supplies r.params p v) : BoundTo r a p v.text
  | byDefault {s : String} (leftOut : ¬ ∃ v, a.Supplies r.params p v)
      (default : r.defaults.get? p = some s) : BoundTo r a p s

/-- What binding arguments comes to. -/
inductive Binds (r : Recipe) : Arguments → Except RecipeError Bindings → Prop
  | tooMany {values : List Value} (more : r.params.length < values.length) :
      Binds r (.positional values)
        (.error (.tooManyArguments r.name r.params.length values.length))
  | unexpected {values : Registry Value} {k : String}
      (first : IsFirst (· ∉ r.params) values.keys k) :
      Binds r (.named values) (.error (.unexpectedArgument r.name k))
  | missing {a : Arguments} {p : String} (fit : a.Fit r.params)
      (first : IsFirst (fun p => (¬ ∃ v, a.Supplies r.params p v) ∧ r.defaults.get? p = none)
        r.params p) : Binds r a (.error (.missingArgument r.name p))
  | bound {a : Arguments} {b : Bindings} (fit : a.Fit r.params) (keys : b.keys = r.params)
      (values : ∀ p ∈ r.params, ∃ s, b.get? p = some s ∧ r.BoundTo a p s) : Binds r a (.ok b)

variable {r : Recipe} {a : Arguments} {given : Registry String} {b b' : Bindings} {p s : String}

/-! ## What is supplied -/

/-- Arguments that go with the parameters supply something, and others are refused. -/
theorem supplied_cases (r : Recipe) (a : Arguments) :
    (a.Fit r.params ∧ ∃ given, r.supplied a = .ok given) ∨
      ∃ e, r.supplied a = .error e ∧ r.Binds a (.error e) := by
  cases a with
  | positional values =>
    rw [supplied]
    split
    next hmore => exact Or.inr ⟨_, rfl, .tooMany hmore⟩
    next hfew => exact Or.inl ⟨.positional (Nat.not_lt.mp hfew), _, rfl⟩
  | named values =>
    rw [supplied]
    split
    next k hk => exact Or.inr ⟨_, rfl, .unexpected (isFirst_iff_find?.mpr (by simpa using hk))⟩
    next hnone =>
      refine Or.inl ⟨.named fun k hk => ?_, _, rfl⟩
      simpa using List.find?_eq_none.mp hnone k hk

/-- Arguments that fit the parameters are supplied. -/
theorem exists_supplied (h : a.Fit r.params) : ∃ given, r.supplied a = .ok given := by
  cases h with
  | positional few => exact ⟨_, by rw [supplied, if_neg (Nat.not_lt.mpr few)]⟩
  | @named values known =>
    have hnone : (values.keys.find? fun k => !r.params.contains k) = none :=
      List.find?_eq_none.mpr fun k hk => by simpa using known k hk
    exact ⟨_, by rw [supplied, hnone]⟩

/-- A parameter that is declared once gets one value at most. -/
theorem Supplies.unique (hdistinct : r.params.Nodup) {v v' : Value}
    (h : a.Supplies r.params p v) (h' : a.Supplies r.params p v') : v = v' := by
  cases h with
  | @position values i _ param value =>
    cases h' with
    | @position _ j _ param' value' =>
      obtain ⟨hi, hpi⟩ := List.getElem?_eq_some_iff.mp param
      obtain ⟨hj, hpj⟩ := List.getElem?_eq_some_iff.mp param'
      obtain rfl : i = j := (hdistinct.getElem_inj_iff).mp (hpi.trans hpj.symm)
      exact Option.some.inj (value.symm.trans value')
  | name value =>
    cases h' with
    | name value' => exact Option.some.inj (value.symm.trans value')

/-- What is known of a parameter when its turn comes: what is given for it, or its default. -/
def known (r : Recipe) (given : Registry String) (p : String) : Option String :=
  (given.get? p).or (r.defaults.get? p)

/-- Nothing is known of a parameter that is neither supplied nor has a default. -/
theorem known_eq_none_iff (h : r.supplied a = .ok given) :
    r.known given p = none ↔ (¬ ∃ v, a.Supplies r.params p v) ∧ r.defaults.get? p = none := by
  rw [known, Option.or_eq_none_iff]
  refine and_congr_left fun _ => ⟨fun hnone ⟨v, hv⟩ => ?_, fun hnone => ?_⟩
  · obtain ⟨s, hs⟩ := exists_get?_of_supplies h hv
    simp [hnone] at hs
  · by_contra hsome
    obtain ⟨s, hs⟩ := Option.ne_none_iff_exists'.mp hsome
    obtain ⟨v, hv, -⟩ := exists_supplies_of_supplied h hs
    exact hnone ⟨v, hv⟩

/-- A parameter is bound to what is known of it. -/
theorem boundTo_iff (hdistinct : r.params.Nodup) (h : r.supplied a = .ok given) :
    r.BoundTo a p s ↔ r.known given p = some s := by
  rw [known]
  cases hgiven : given.get? p with
  | some s' =>
    obtain ⟨v, hv, rfl⟩ := exists_supplies_of_supplied h hgiven
    rw [Option.some_or, Option.some.injEq]
    constructor
    · intro hbound
      cases hbound with
      | supplied hv' => rw [Supplies.unique hdistinct hv hv']
      | byDefault leftOut _ => exact absurd ⟨v, hv⟩ leftOut
    · rintro rfl
      exact .supplied hv
  | none =>
    have hleft : ¬ ∃ v, a.Supplies r.params p v := by
      rintro ⟨v, hv⟩
      obtain ⟨s', hs'⟩ := exists_get?_of_supplies h hv
      simp [hgiven] at hs'
    rw [Option.none_or]
    constructor
    · intro hbound
      cases hbound with
      | supplied hv => exact absurd ⟨_, hv⟩ hleft
      | byDefault _ hdefault => exact hdefault
    · exact .byDefault hleft

/-! ## What is missing -/

/-- Other parameters do not lose what is given for them when a value is taken. -/
theorem known_erase {q : String} (h : p ≠ q) : r.known (given.erase q) p = r.known given p := by
  rw [known, known, Registry.get?_erase, if_neg h]

/-- Dropping a parameter that is not asked for again changes nothing for the others. -/
theorem find?_known_erase {q : String} {params : List String} (hq : q ∉ params) :
    params.find? (fun p => r.known (given.erase q) p = none) =
      params.find? (fun p => r.known given p = none) := by
  induction params with
  | nil => rfl
  | cons p params ih =>
    rw [List.mem_cons, not_or] at hq
    rw [List.find?_cons, List.find?_cons, known_erase (Ne.symm hq.1), ih hq.2]

/-- What is missing is the first parameter that nothing is known of. -/
theorem fill_eq_error_iff {e : RecipeError} : ∀ {params : List String} {given : Registry String}
    {b : Bindings}, params.Nodup → (r.fill params given b = .error e ↔
      ∃ p, params.find? (fun p => r.known given p = none) = some p ∧
        e = .missingArgument r.name p) := by
  intro params
  induction params with
  | nil => intro given b _; simp [fill]
  | cons q params ih =>
    intro given b hdistinct
    obtain ⟨hq, hparams⟩ := List.nodup_cons.mp hdistinct
    rw [fill]
    split
    -- the value that is taken is not missed later on: no further parameter bears this name
    next v hgiven => rw [ih hparams, find?_known_erase hq]; simp [known, hgiven]
    next hgiven =>
      split
      next v hdefault => rw [ih hparams]; simp [known, hgiven, hdefault]
      next hdefault => simp [known, hgiven, hdefault, eq_comm]

/-- All parameters are bound, in order, to what is known of them. -/
theorem fill_eq_ok_iff (hdistinct : r.params.Nodup) : r.fill r.params given ∅ = .ok b ↔
    b.keys = r.params ∧ ∀ p ∈ r.params, ∃ s, b.get? p = some s ∧ r.known given p = some s := by
  have hfilled : ∀ {b}, r.fill r.params given ∅ = .ok b → b.keys = r.params ∧
      ∀ p ∈ r.params, ∃ s, b.get? p = some s ∧ r.known given p = some s := by
    intro b hfill
    have hkeys : b.keys = r.params := by
      rw [keys_fill hfill]
      exact eraseDups_eq_self hdistinct
    refine ⟨hkeys, fun p hp => ?_⟩
    obtain ⟨s, hs⟩ := (b.mem_keys_iff p).mp (hkeys ▸ hp)
    refine ⟨s, hs, ?_⟩
    rwa [get?_fill hfill, if_neg (not_not.mpr hp),
      if_pos (List.count_eq_one_of_mem hdistinct hp)] at hs
  refine ⟨hfilled, fun ⟨hkeys, hvalues⟩ => ?_⟩
  cases hfill : r.fill r.params given ∅ with
  | error e =>
    obtain ⟨p, hp, -⟩ := (fill_eq_error_iff hdistinct).mp hfill
    obtain ⟨s, -, hknown⟩ := hvalues p (List.mem_of_find?_eq_some hp)
    have hnone := List.find?_some hp
    simp [hknown] at hnone
  | ok b' =>
    -- both have the same names, and the same is known of each of them
    obtain ⟨hkeys', hvalues'⟩ := hfilled hfill
    refine congrArg _ (Registry.eq_of_get?_eq (hkeys'.trans hkeys.symm) fun p hp => ?_)
    obtain ⟨s, hs, hknown⟩ := hvalues p (hkeys' ▸ hp)
    obtain ⟨s', hs', hknown'⟩ := hvalues' p (hkeys' ▸ hp)
    rw [hs, hs', ← hknown, ← hknown']

/-! ## The result -/

/-- **The result of binding arguments**, where no parameter is declared twice. -/
theorem bind_eq_iff (hdistinct : r.params.Nodup) {result : Except RecipeError Bindings} :
    r.bind a = result ↔ r.Binds a result := by
  constructor
  · rintro rfl
    rcases supplied_cases r a with ⟨fit, given, hgiven⟩ | ⟨e, he, hbinds⟩
    · have hbind : r.bind a = r.fill r.params given ∅ := by rw [bind, hgiven]; rfl
      rw [hbind]
      cases hfill : r.fill r.params given ∅ with
      | error e =>
        obtain ⟨p, hp, rfl⟩ := (fill_eq_error_iff hdistinct).mp hfill
        refine .missing fit ((IsFirst.congr fun _ => known_eq_none_iff hgiven).mp ?_)
        exact isFirst_iff_find?.mpr hp
      | ok b =>
        obtain ⟨hkeys, hvalues⟩ := (fill_eq_ok_iff hdistinct).mp hfill
        refine .bound fit hkeys fun p hp => ?_
        simpa only [boundTo_iff hdistinct hgiven] using hvalues p hp
    · have hbind : r.bind a = .error e := by rw [bind, he]; rfl
      rwa [hbind]
  · intro h
    cases h with
    | tooMany more => rw [bind, supplied, if_pos more]; rfl
    | unexpected first =>
      have hk := isFirst_iff_find?.mp first
      rw [bind, supplied]
      simp only [decide_not, List.contains_eq_mem] at hk ⊢
      rw [hk]
      rfl
    | missing fit first =>
      obtain ⟨given, hgiven⟩ := exists_supplied fit
      refine bind_eq_error_iff.mpr (Or.inr ⟨given, hgiven, (fill_eq_error_iff hdistinct).mpr ?_⟩)
      exact ⟨_, isFirst_iff_find?.mp ((IsFirst.congr fun _ => known_eq_none_iff hgiven).mpr first),
        rfl⟩
    | bound fit keys values =>
      obtain ⟨given, hgiven⟩ := exists_supplied fit
      refine bind_eq_ok_iff.mpr ⟨given, hgiven, (fill_eq_ok_iff hdistinct).mpr ⟨keys, ?_⟩⟩
      simpa only [boundTo_iff hdistinct hgiven] using values

/-! ## Values by position and by name -/

/-- What comes of arguments that fit depends on what they supply only. -/
theorem Binds.of_supplies_iff {a' : Arguments} {result : Except RecipeError Bindings}
    (h : r.Binds a result) (fit : a.Fit r.params) (fit' : a'.Fit r.params)
    (hsame : ∀ p v, a.Supplies r.params p v ↔ a'.Supplies r.params p v) : r.Binds a' result := by
  have hbound : ∀ {p s}, r.BoundTo a p s → r.BoundTo a' p s := by
    intro p s hbound
    cases hbound with
    | supplied value => exact .supplied ((hsame _ _).mp value)
    | byDefault leftOut default =>
      exact .byDefault (by simpa only [hsame] using leftOut) default
  cases h with
  | tooMany more =>
    cases fit with
    | positional few => omega
  | unexpected first =>
    cases fit with
    | named known =>
      exact absurd (known _ first.mem) first.holds
  | missing _ first => exact .missing fit' (by simpa only [hsame] using first)
  | bound _ keys values =>
    refine .bound fit' keys fun p hp => ?_
    obtain ⟨s, hs, hvalue⟩ := values p hp
    exact ⟨s, hs, hbound hvalue⟩

/-- Values by position bind as the same values by name do, in whatever order the names are
written. -/
theorem bind_positional_eq_named (hdistinct : r.params.Nodup) {values : List Value}
    (few : values.length ≤ r.params.length) {named : Registry Value}
    (hnamed : named.entries.Perm (r.params.zip values)) :
    r.bind (.positional values) = r.bind (.named named) := by
  have fit : (Arguments.named named).Fit r.params := by
    refine .named fun k hk => ?_
    obtain ⟨⟨k, v⟩, he, rfl⟩ := List.mem_map.mp hk
    exact (List.of_mem_zip (hnamed.mem_iff.mp he)).1
  refine ((bind_eq_iff hdistinct).mpr ?_).symm
  refine Binds.of_supplies_iff ((bind_eq_iff hdistinct).mp rfl) (.positional few) fit ?_
  intro p v
  rw [supplies_positional_iff, supplies_named_iff, hnamed.mem_iff]

/-! ## Distinct parameters -/

/-- The defaults of a declared recipe are the texts of the declared ones. -/
theorem get?_defaults_ofDeclaration (name : String) (d : RecipeDeclaration) (p : String) :
    (ofDeclaration name d).defaults.get? p = (d.defaults.get? p).map Value.text :=
  Registry.get?_map _ _ _

/-- **What comes of arguments where no parameter is declared twice.** There are too many of them if
there are more values than parameters. The first name that is no parameter is unexpected. If the
arguments fit, the first parameter without a value and without a default is missing; and if there is
none, exactly the parameters are bound, in order, each to the text of its value or else of its
default. Values for the first parameters by position bind as these parameters with these values by
name, in whatever order the names are written. -/
theorem bind_exact (r : Recipe) (hdistinct : r.params.Nodup) :
    (∀ a result, r.bind a = result ↔ r.Binds a result) ∧
    (∀ values : List Value, values.length ≤ r.params.length → ∀ named : Registry Value,
      named.entries.Perm (r.params.zip values) →
        r.bind (.positional values) = r.bind (.named named)) ∧
    ∀ d, r = ofDeclaration r.name d →
      ∀ p, r.defaults.get? p = (d.defaults.get? p).map Value.text := by
  refine ⟨fun a result => bind_eq_iff hdistinct, fun values few named hnamed =>
    bind_positional_eq_named hdistinct few hnamed, fun d hd p => ?_⟩
  rw [hd]
  exact get?_defaults_ofDeclaration _ d p

/-- Two ways to supply the same arguments, and one argument too many. -/
theorem bind_exact_greeting : greeting.params.Nodup ∧
    greeting.Binds (.named ⟨[("name", .string "Ada"), ("title", .string "Dr")], by decide⟩)
      (.error (.unexpectedArgument "greet" "title")) ∧
    greeting.bind (.positional [.string "Ada", .string "hi"]) =
      greeting.bind (.named ⟨[("phrase", .string "hi"), ("name", .string "Ada")], by decide⟩) := by
  obtain ⟨hexact, hagree, -⟩ := bind_exact greeting (by decide)
  exact ⟨by decide, (hexact _ _).mp rfl, hagree _ (by decide) _ (List.Perm.swap _ _ _)⟩

end Recipe

end Provision
