import Provision.Proofs.Blueprint
import Provision.Proofs.Registry
import Provision.Proofs.Result

/-!
# What a parameter is bound to

A caller supplies values by position or by name, and a recipe has defaults for what is left out.
A supplied value is taken once: where a recipe declares a parameter twice, the second place finds
nothing left, and the default replaces what the first place has got.

> `bind_takes_effect`: a supplied value is bound exactly if its parameter is declared once;
> `bind_ignores_supplied`: an accepted configuration in which a supplied value has no effect.
-/

namespace Provision

open Yaml (Value)

/-- Whether arguments supply a value for a parameter: at one of its places, or under its name. -/
inductive Arguments.Supplies (params : List String) (p : String) : Arguments → Value → Prop
  | position {values : List Value} {i : Nat} {v : Value} (param : params[i]? = some p)
      (value : values[i]? = some v) : Supplies params p (.positional values) v
  | name {values : Registry Value} {v : Value} (value : values.get? p = some v) :
      Supplies params p (.named values) v

namespace Recipe

variable {r : Recipe} {a : Arguments} {given : Registry String} {b b' : Bindings} {p : String}

/-! ## What is supplied -/

/-- Positional arguments supply the parameters in the order of their declaration. -/
theorem supplies_positional_iff {params : List String} {values : List Value} {v : Value} :
    Arguments.Supplies params p (.positional values) v ↔ (p, v) ∈ params.zip values := by
  rw [List.mem_iff_getElem?]
  simp only [List.getElem?_zip_eq_some]
  constructor
  · rintro ⟨hparam, hvalue⟩
    exact ⟨_, hparam, hvalue⟩
  · rintro ⟨i, hparam, hvalue⟩
    exact .position hparam hvalue

/-- Named arguments supply the parameters by name. -/
theorem supplies_named_iff {params : List String} {values : Registry Value} {v : Value} :
    Arguments.Supplies params p (.named values) v ↔ (p, v) ∈ values.entries := by
  rw [← Registry.get?_eq_some_iff]
  exact ⟨fun (.name value) => value, .name⟩

/-- The same for the texts that the values are put in as. -/
theorem mem_zip_texts_iff {params : List String} {values : List Value} {s : String} :
    (p, s) ∈ params.zip (values.map Value.text) ↔
      ∃ v, Arguments.Supplies params p (.positional values) v ∧ v.text = s := by
  simp only [supplies_positional_iff, List.zip_map_right, List.mem_map, Prod.exists, Prod.map_apply,
    Prod.mk.injEq, id_eq]
  constructor
  · rintro ⟨q, v, hv, rfl, hs⟩
    exact ⟨v, hv, hs⟩
  · rintro ⟨v, hv, hs⟩
    exact ⟨p, v, hv, rfl, hs⟩

/-- Positional arguments as they are supplied: parameters against values, as far as both go. -/
theorem eq_of_supplied_positional {values : List Value}
    (h : r.supplied (.positional values) = .ok given) :
    given = Registry.ofList (r.params.zip (values.map Value.text)) := by
  rw [supplied] at h
  split at h
  · simp at h
  · exact (Except.ok.inj h).symm

/-- Named arguments as they are supplied: every value as its text. -/
theorem eq_of_supplied_named {values : Registry Value}
    (h : r.supplied (.named values) = .ok given) : given = values.map fun _ v => v.text := by
  rw [supplied] at h
  split at h
  · simp at h
  · exact (Except.ok.inj h).symm

/-- What is kept for a parameter is the text of a value that is supplied for it. -/
theorem exists_supplies_of_supplied (h : r.supplied a = .ok given) {s : String}
    (hs : given.get? p = some s) : ∃ v, a.Supplies r.params p v ∧ v.text = s := by
  cases a with
  | positional values =>
    rw [eq_of_supplied_positional h] at hs
    obtain ⟨before, after, hsplit, -⟩ := (Registry.get?_ofList_eq_some_iff _ p s).mp hs
    exact mem_zip_texts_iff.mp (hsplit ▸ by simp)
  | named values =>
    rw [eq_of_supplied_named h, Registry.get?_map, Option.map_eq_some_iff] at hs
    obtain ⟨v, hv, hs⟩ := hs
    exact ⟨v, .name hv, hs⟩

/-- Something is kept for each parameter that a value is supplied for. -/
theorem exists_get?_of_supplies (h : r.supplied a = .ok given) {v : Value}
    (hv : a.Supplies r.params p v) : ∃ s, given.get? p = some s := by
  cases hv with
  | position param value =>
    have hmem := mem_zip_texts_iff.mpr ⟨v, .position param value, rfl⟩
    rw [eq_of_supplied_positional h, ← Registry.mem_keys_iff, Registry.keys_ofList,
      List.mem_eraseDups]
    exact List.mem_map_of_mem hmem
  | name value =>
    rw [eq_of_supplied_named h, Registry.get?_map, value]
    exact ⟨v.text, rfl⟩

/-! ## What is bound -/

/-- What becomes of a parameter: what is given for it, or else its default, if it comes up once,
and its default in any case if it comes up again. -/
theorem get?_fill : ∀ {params : List String} {given : Registry String} {b b' : Bindings},
    r.fill params given b = .ok b' → b'.get? p =
      if p ∉ params then b.get? p
      else if params.count p = 1 then (given.get? p).or (r.defaults.get? p)
      else r.defaults.get? p := by
  intro params
  induction params with
  | nil =>
    intro given b b' h
    obtain rfl := Except.ok.inj h
    simp
  | cons q params ih =>
    intro given b b' h
    rw [fill] at h
    split at h
    next v hgiven =>
      -- the value is taken, and a further place of the parameter does not find it
      rw [ih h, Registry.get?_insert, Registry.get?_erase]
      by_cases hp : p = q
      · subst hp
        by_cases hmem : p ∈ params
        · have hcount := List.count_pos_iff.mpr hmem
          simp [hmem, List.count_cons_self, Nat.pos_iff_ne_zero.mp hcount]
        · simp [hmem, List.count_cons_self, List.count_eq_zero.mpr hmem, hgiven]
      · simp [hp, List.count_cons_of_ne (Ne.symm hp)]
    next hgiven =>
      split at h
      next v hdefault =>
        rw [ih h, Registry.get?_insert]
        by_cases hp : p = q
        · subst hp
          by_cases hmem : p ∈ params
          · have hcount := List.count_pos_iff.mpr hmem
            simp [hmem, List.count_cons_self, hgiven, Nat.pos_iff_ne_zero.mp hcount]
          · simp [hmem, List.count_cons_self, List.count_eq_zero.mpr hmem, hgiven, hdefault]
        · simp [hp, List.count_cons_of_ne (Ne.symm hp)]
      next => simp at h

/-- The parameters that are bound, after one more of them. -/
theorem keys_insert_append (b : Bindings) (q v : String) (params : List String) :
    ((b.insert q v).keys ++ params).eraseDups = (b.keys ++ q :: params).eraseDups := by
  rw [Registry.keys_insert]
  by_cases hq : q ∈ b.keys
  · rw [if_pos hq, List.eraseDups_append, List.eraseDups_append]
    simp [List.removeAll, hq]
  · rw [if_neg hq, List.append_assoc, List.singleton_append]

/-- Each parameter is bound once, in the order in which the parameters are declared. -/
theorem keys_fill : ∀ {params : List String} {given : Registry String} {b b' : Bindings},
    r.fill params given b = .ok b' → b'.keys = (b.keys ++ params).eraseDups := by
  intro params
  induction params with
  | nil =>
    intro given b b' h
    obtain rfl := Except.ok.inj h
    rw [List.append_nil, eraseDups_eq_self b.keys_nodup]
  | cons q params ih =>
    intro given b b' h
    rw [fill] at h
    split at h
    · rw [ih h, keys_insert_append]
    · split at h
      · rw [ih h, keys_insert_append]
      · simp at h

/-- **A supplied value takes effect if its parameter is declared once.** The parameter is then
bound to the text of a value that is supplied for it, and to its default only if there is none.
A parameter that is declared more than once is bound to its default, whatever is supplied. -/
theorem bind_takes_effect (h : r.bind a = .ok b) :
    b.keys = r.params.eraseDups ∧
    ∀ p ∈ r.params, ∃ s, b.get? p = some s ∧
      (r.params.count p = 1 →
        (∃ v, a.Supplies r.params p v ∧ v.text = s) ∨
        (¬ ∃ v, a.Supplies r.params p v) ∧ r.defaults.get? p = some s) ∧
      (r.params.count p ≠ 1 → r.defaults.get? p = some s) := by
  obtain ⟨given, hgiven, hfill⟩ := bind_eq_ok_iff.mp h
  have hkeys : b.keys = r.params.eraseDups := keys_fill hfill
  refine ⟨hkeys, fun p hp => ?_⟩
  have hbound : p ∈ b.keys := by rwa [hkeys, List.mem_eraseDups]
  obtain ⟨s, hs⟩ := (Registry.mem_keys_iff b p).mp hbound
  refine ⟨s, hs, fun hone => ?_, fun hmore => ?_⟩
  · rw [get?_fill hfill, if_neg (not_not.mpr hp), if_pos hone] at hs
    cases hvalue : given.get? p with
    | some s' =>
      obtain rfl : s' = s := by simpa [hvalue] using hs
      exact Or.inl (exists_supplies_of_supplied hgiven hvalue)
    | none =>
      right
      refine ⟨fun ⟨v, hv⟩ => ?_, by simpa [hvalue] using hs⟩
      obtain ⟨s', hs'⟩ := exists_get?_of_supplies hgiven hv
      simp [hvalue] at hs'
  · rwa [get?_fill hfill, if_neg (not_not.mpr hp), if_neg hmore] at hs

/-- A recipe with a default that a caller may leave as it is. -/
def greeting : Recipe where
  name := "greet"
  params := ["name", "phrase"]
  defaults := ⟨[("phrase", "hello"), ("name", "world")], by decide⟩

/-- A greeting whose name is supplied and whose phrase is not. -/
theorem bind_takes_effect_greeting :
    greeting.bind (.positional [.string "Ada"]) =
      .ok ⟨[("name", "Ada"), ("phrase", "hello")], by decide⟩ ∧
    ∃ v, Arguments.Supplies greeting.params "name" (.positional [.string "Ada"]) v ∧
      v.text = "Ada" := by
  have hbind : greeting.bind (.positional [.string "Ada"]) =
      .ok ⟨[("name", "Ada"), ("phrase", "hello")], by decide⟩ := rfl
  refine ⟨hbind, ?_⟩
  obtain ⟨s, hs, hone, -⟩ := (bind_takes_effect hbind).2 "name" (by decide)
  obtain rfl : "Ada" = s := Option.some.inj hs
  rcases hone rfl with hsupplied | ⟨hnone, -⟩
  · exact hsupplied
  · exact absurd ⟨.string "Ada", .position (i := 0) rfl rfl⟩ hnone

end Recipe

/-! ## A value without effect -/

/-- A recipe that declares its parameter twice. -/
def Config.forgetful : Config where
  version := "1.0"
  name := "forgetful"
  recipes :=
    ⟨[("greet",
        { params := ["name", "name"]
          defaults := ⟨[("name", .string "world")], by decide⟩
          check := some "test {name} = Ada"
          setup := [.command "echo {name}"] })], by decide⟩
  targets :=
    ⟨[("hello", { recipe := [.invocation ⟨"greet", .positional [.string "Ada"]⟩] })], by decide⟩

/-- **A supplied value may have no effect.** The configuration is accepted and binding succeeds,
but the parameter is not bound to what is supplied for it. -/
theorem bind_ignores_supplied :
    (Loaded.ofConfig .forgetful).result = .ok (Blueprint.ofConfig .forgetful) ∧
    ∃ r b, (Blueprint.ofConfig .forgetful).recipes.get? "greet" = some r ∧
      r.bind (.positional [.string "Ada"]) = .ok b ∧
      (∃ v, Arguments.Supplies r.params "name" (.positional [.string "Ada"]) v) ∧
      ∀ v, Arguments.Supplies r.params "name" (.positional [.string "Ada"]) v →
        b.get? "name" ≠ some v.text := by
  refine ⟨(Loaded.ofConfig_eq_ok_iff _ _).mpr ⟨rfl, by decide⟩, _, _, rfl, rfl,
    ⟨_, .position (i := 0) rfl rfl⟩, fun v hv => ?_⟩
  cases hv with
  | position param value =>
    obtain rfl := List.mem_singleton.mp (List.mem_of_getElem? value)
    decide

end Provision
