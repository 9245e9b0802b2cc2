import Provision.Proofs.Config.Declared

/-!
# What becomes of an accepted text

A text that is accepted has one document, and the configuration is what its root says. Fields are
told apart: none is given twice. Free names are not: a declaration whose name comes again is
replaced by the later one, in the place of the first.

> `Config.parse_keeps`: targets and recipes are kept exactly if no name is written twice;
> `Config.parse_drops_repeated`: an accepted text one of whose targets is dropped.
-/

namespace Provision

open Yaml (Document Node Surroundings)
open Yaml.Decode

/-- The value of a field of a declaration. -/
def Yaml.Surroundings.field? (env : Surroundings) (n : Node) (name : String) : Option Node :=
  (env.entries? n).bind fun es =>
    (es.find? fun e => env.fieldName? e.1 == some name).map Prod.snd

/-- The field that a mapping gives once is the field that is read. -/
theorem Yaml.Decode.FieldRead.of_field? {α : Type} {env : Surroundings} {n m : Node}
    {es : List (Node × Node)} {name : String} {P : Node → α → Prop} {o : Option α}
    (h : FieldRead env.fieldName? name P es o) (hes : env.entries? n = some es)
    (hm : env.field? n name = some m) : ∃ x, P m x ∧ o = some x := by
  rw [Surroundings.field?, hes] at hm
  obtain ⟨e, he, rfl⟩ := Option.map_eq_some_iff.mp hm
  exact h.of_mem (List.mem_of_find?_eq_some he) (by simpa using List.find?_some he)

namespace RecipeDeclaration

/-- Defaults that are spelt out are read entry by entry, in order. -/
theorem SaidBy.defaults_mapped {env : Surroundings} {n m : Node} {r : RecipeDeclaration}
    (h : SaidBy env n r) (hm : env.field? n "defaults" = some m) :
    Mapped (Makes value env) env m r.defaults := by
  obtain ⟨es, f, hes, hfields, rfl⟩ := h
  obtain ⟨r, hr, hf⟩ := hfields.defaults.of_field? hes hm
  rw [ofFields, hf]
  exact hr

end RecipeDeclaration

namespace Config

variable {text : String} {c : Config}

/-- The configuration that a text declares has been decoded from the root of its document. -/
theorem yields_of_parse (h : parse text = .ok c) :
    Yields (decode maxDepth) (Document.read text).surroundings (Document.read text).root c := by
  obtain ⟨⟨x, n⟩, hdecode, h⟩ := bind_eq_ok_iff.mp h
  dsimp only at h
  have hx : x = c := by
    split at h
    · exact nomatch h
    · split at h
      · exact nomatch h
      · exact Except.ok.inj h
  exact ⟨[], 0, n, hx ▸ hdecode⟩

theorem makes_of_parse (h : parse text = .ok c) :
    Makes decode (Document.read text).surroundings (Document.read text).root c :=
  ⟨maxDepth, yields_of_parse h⟩

/-- An accepted text says what the configuration holds, field by field. -/
theorem saidBy_of_parse (h : parse text = .ok c) :
    SaidBy (Document.read text).surroundings (Document.read text).root c :=
  saidBy_of_makes (makes_of_parse h)

section Fields

variable {env : Surroundings} {n m : Node}

/-- Targets that are spelt out are read entry by entry, in order. -/
theorem SaidBy.targets_mapped (h : SaidBy env n c) (hm : env.field? n "targets" = some m) :
    Mapped (TargetDeclaration.SaidBy env) env m c.targets := by
  obtain ⟨es, f, hes, hfields, -, -, -, -, -, htargets⟩ := h
  obtain ⟨r, hr, hf⟩ := hfields.targets.of_field? hes hm
  rw [htargets, hf]
  exact hr

/-- Recipes that are spelt out are read entry by entry, in order. -/
theorem SaidBy.recipes_mapped (h : SaidBy env n c) (hm : env.field? n "recipes" = some m) :
    Mapped (RecipeDeclaration.SaidBy env) env m c.recipes := by
  obtain ⟨es, f, hes, hfields, -, -, -, -, hrecipes, -⟩ := h
  obtain ⟨r, hr, hf⟩ := hfields.recipes.of_field? hes hm
  rw [hrecipes, hf]
  exact hr

end Fields

/-- **Declarations are kept exactly if their names differ.** The configuration that a text declares
is what the root of its document says. Of the targets, of the recipes, of the defaults of each
recipe and of the arguments by name of each invocation, all entries are there in the order of the
document and with their own values exactly if no name is written twice; a name that is written
again has the place of its first entry and the value of its last one. -/
theorem parse_keeps (h : parse text = .ok c) :
    let env := (Document.read text).surroundings
    let root := (Document.read text).root
    SaidBy env root c ∧
    (∀ m said, env.field? root "targets" = some m → env.named? m = some said →
      (Kept (TargetDeclaration.SaidBy env) said c.targets ↔ (said.map Prod.fst).Nodup)) ∧
    (∀ m said, env.field? root "recipes" = some m → env.named? m = some said →
      (Kept (RecipeDeclaration.SaidBy env) said c.recipes ↔ (said.map Prod.fst).Nodup)) ∧
    (∀ n r m said, RecipeDeclaration.SaidBy env n r → env.field? n "defaults" = some m →
      env.named? m = some said →
      (Kept (Makes value env) said r.defaults ↔ (said.map Prod.fst).Nodup)) ∧
    (∀ n values said, Arguments.SaidBy env n (.named values) → env.named? n = some said →
      (Kept (LooselySaidBy env) said values ↔ (said.map Prod.fst).Nodup)) := by
  intro env root
  have hsaid : SaidBy env root c := saidBy_of_parse h
  exact ⟨hsaid, fun m said hm => (hsaid.targets_mapped hm).kept_iff,
    fun m said hm => (hsaid.recipes_mapped hm).kept_iff,
    fun n r m said hr hm => (hr.defaults_mapped hm).kept_iff,
    fun n values said hvalues => hvalues.kept_iff⟩

/-! ## One text of each kind -/

/-- A text that declares two targets. -/
def textWithTargets : String :=
  "version: 1\nname: t\ntargets:\n  base:\n    recipe: [make base]\n  tool:\n    recipe: [make old]\n"

/-- A text that declares a target twice. -/
def textWithRepeatedTarget : String := textWithTargets ++ "  base:\n    recipe: [make new]\n"

/-- The names that a text gives its targets, when they can be listed, are those of some mapping.
-/
theorem exists_names_of_map_eq {env : Surroundings} {root : Node} {names : List String}
    (h : ((env.field? root "targets").bind env.named?).map (·.map Prod.fst) = some names) :
    ∃ m said, env.field? root "targets" = some m ∧ env.named? m = some said ∧
      said.map Prod.fst = names := by
  obtain ⟨said, hsaid, hnames⟩ := Option.map_eq_some_iff.mp h
  obtain ⟨m, hm, hsaid⟩ := Option.bind_eq_some_iff.mp hsaid
  exact ⟨m, said, hm, hsaid, hnames⟩

/-- Three targets in an order of their own, kept as they are written. -/
theorem parse_keeps_targets :
    let env := (Document.read textWithTargets).surroundings
    ∃ c m said, parse textWithTargets = .ok c ∧
      env.field? (Document.read textWithTargets).root "targets" = some m ∧
      env.named? m = some said ∧ Kept (TargetDeclaration.SaidBy env) said c.targets := by
  intro env
  have hparse : (parse textWithTargets).toOption = some
      { version := "1", name := "t",
        targets := ⟨[("base", { recipe := [.command "make base"] }),
          ("tool", { recipe := [.command "make old"] })], by decide⟩ } := by
    decide +kernel
  have hnames : ((env.field? (Document.read textWithTargets).root "targets").bind env.named?).map
      (·.map Prod.fst) = some ["base", "tool"] := by
    decide +kernel
  have hparse := eq_ok_of_toOption_eq_some hparse
  obtain ⟨m, said, hm, hsaid, hnames⟩ := exists_names_of_map_eq hnames
  exact ⟨_, m, said, hparse, hm, hsaid,
    ((parse_keeps hparse).2.1 m said hm hsaid).mpr (hnames ▸ by decide)⟩

/-- **A declaration may be dropped.** The text is accepted, but the first of the two declarations of
a target is not in the configuration. -/
theorem parse_drops_repeated :
    let env := (Document.read textWithRepeatedTarget).surroundings
    ∃ c m said, parse textWithRepeatedTarget = .ok c ∧
      env.field? (Document.read textWithRepeatedTarget).root "targets" = some m ∧
      env.named? m = some said ∧ said.map Prod.fst = ["base", "tool", "base"] ∧
      c.targets.entries = [("base", { recipe := [.command "make new"] }),
        ("tool", { recipe := [.command "make old"] })] ∧
      ¬ Kept (TargetDeclaration.SaidBy env) said c.targets := by
  intro env
  have hparse : (parse textWithRepeatedTarget).toOption = some
      { version := "1", name := "t",
        targets := ⟨[("base", { recipe := [.command "make new"] }),
          ("tool", { recipe := [.command "make old"] })], by decide⟩ } := by
    decide +kernel
  have hnames : ((env.field? (Document.read textWithRepeatedTarget).root "targets").bind
      env.named?).map (·.map Prod.fst) = some ["base", "tool", "base"] := by
    decide +kernel
  obtain ⟨m, said, hm, hsaid, hnames⟩ := exists_names_of_map_eq hnames
  refine ⟨_, m, said, eq_ok_of_toOption_eq_some hparse, hm, hsaid, hnames, rfl, fun hkept => ?_⟩
  have hsame := names_eq_of_forall₂ hkept
  rw [hnames] at hsame
  exact absurd hsame (by decide)

end Config

end Provision
