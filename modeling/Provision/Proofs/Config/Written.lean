import Provision.Proofs.Config.Accepted
import Provision.Proofs.Config.Fit
import Provision.Proofs.Yaml.Readback.Values

/-!
# What is written of a configuration is read again

A configuration is written field by field and recovered field by field: strings as they are, values
as values of their own, executables by way of what is kept of them. What has been read fits, so that
two things alone can be in the way: a value that cannot be written, and a tag whose name is not
legible.

On the way back the characters are located one by one (`Yaml.Readback.Source`), tokens are read at
their spots (`Spot`, `Indicator`, `Leaf`, `Line`, `SimpleKey`), nodes in their places (`Block`,
`Document`), and what is built of them (`Tree`) is decoded (`Recover`, `Values`).

> `Executable.recovers_outline`, `Config.recovers_outline`: what is written is recovered;
> `Config.parse_write`: what is written of an accepted configuration is accepted as the same one.
-/

namespace Provision

open Yaml (Value Loose Outline Decode Document Surroundings WriteError)
open Yaml.Outline (Stuck ofValue)
open Yaml.Decode

variable {depth : Nat} {o : Outline}

/-! ## Registries and options -/

/-- A registry is written entry by entry. -/
theorem Registry.exists_fields_of_outline {α : Type} {r : Registry α}
    {f : α → Except WriteError Outline} (h : r.outline f = .ok o) : ∃ es, o = .fields es ∧
      List.Forall₂ (fun w e => e.1 = w.1 ∧ f w.2 = .ok e.2) r.entries es := by
  obtain ⟨es, hes, h⟩ := bind_eq_ok_iff.mp h
  obtain rfl := Except.ok.inj h
  refine ⟨es, rfl, (mapM_eq_ok_iff.mp hes).imp fun w e he => ?_⟩
  obtain ⟨o, ho, rfl⟩ := map_eq_ok_iff.mp he
  exact ⟨rfl, ho⟩

/-- A registry is recovered if its values are, one level deeper. -/
theorem Registry.recovers_outline {α : Type} {r : Registry α} {f : α → Except WriteError Outline}
    {item : Nat → Target → Decode α} (h : r.outline f = .ok o)
    (hitem : ∀ x ∈ r.values, ∀ o, f x = .ok o → Recovers (item depth) o x) :
    Recovers (registry item (depth + 1)) o r := by
  obtain ⟨es, rfl, hes⟩ := exists_fields_of_outline h
  exact recovers_registry (forall₂_flip_of_mem hes fun w hw e he =>
    ⟨he.1, hitem w.2 (List.mem_map_of_mem hw) e.2 he.2⟩)

/-- A string that may be absent is recovered. -/
theorem recovers_optional (s : Option String) :
    Recovers (option (string "a string")) (.optional s) s := by
  cases s with
  | none => exact recovers_option_none _
  | some s => exact recovers_option_string (recovers_string _ s)

/-! ## Executables -/

/-- What is written of arguments that fit conveys those arguments. -/
theorem Arguments.exists_conveys {a : Arguments} (h : a.outline = .ok o)
    (hfits : ∀ v, a.Holds v → v.Fits true depth) :
    ∃ l, Conveys (depth + 1) o l ∧ Form l a := by
  cases a with
  | positional values =>
    obtain ⟨os, hos, h⟩ := bind_eq_ok_iff.mp h
    obtain rfl := Except.ok.inj h
    obtain ⟨ls, hls, heach⟩ := exists_forall₂_between (forall₂_flip_of_mem (mapM_eq_ok_iff.mp hos)
      fun v hv o ho => exists_conveys_value (hfits v hv) ho)
    exact ⟨.sequence ls, conveys_sequence hls, .positional heach⟩
  | named values =>
    obtain ⟨es, rfl, hes⟩ := Registry.exists_fields_of_outline h
    obtain ⟨ls, hls, heach⟩ := exists_forall₂_between
      (R := fun (e : String × Outline) (l : Loose × Loose) =>
        Conveys depth (.string e.1) l.1 ∧ Conveys depth e.2 l.2)
      (S := fun l w => l.1 = .string w.1 ∧ l.2.value? = some w.2)
      (forall₂_flip_of_mem hes fun w hw e he => by
        obtain ⟨l, hl, hvalue⟩ := exists_conveys_value (hfits w.2 (List.mem_map_of_mem hw)) he.2
        exact ⟨(.string w.1, l), ⟨he.1 ▸ conveys_string depth e.1, hl⟩, rfl, hvalue⟩)
    refine ⟨.mapping ls, conveys_mapping (List.forall₂_map_left_iff.mpr hls), ?_⟩
    have hform := Form.named heach
    rwa [Registry.ofList_entries] at hform

/-- What is written of an executable conveys that executable. -/
theorem Executable.exists_conveys {x : Executable} (h : x.outline = .ok o) (hfits : x.Fits depth) :
    ∃ l, Conveys (depth + 2) o l ∧ Form l x := by
  cases x with
  | command s =>
    obtain rfl := Except.ok.inj h
    exact ⟨.string s, conveys_string _ s, .command s⟩
  | invocation i =>
    obtain ⟨args, hargs, h⟩ := bind_eq_ok_iff.mp h
    obtain rfl := Except.ok.inj h
    obtain ⟨l, hl, hform⟩ := Arguments.exists_conveys hargs hfits
    refine ⟨.mapping [(.string "recipe", .string i.recipe), (.string "args", l)],
      conveys_mapping ?_, .invocation (.fieldsWith ?_ rfl rfl hform)⟩
    · exact .cons ⟨conveys_string _ _, conveys_string _ _⟩ (.cons ⟨conveys_string _ _, hl⟩ .nil)
    · simp [Invocation.fieldNames, Invocation.fieldOf?]

namespace Executable

/-- **An executable whose arguments fit is recovered from what is written of it.** -/
theorem recovers_outline {x : Executable} (h : x.outline = .ok o) (hfits : x.Fits depth) :
    Recovers (decode (depth + 2)) o x := by
  obtain ⟨l, hl, hform⟩ := exists_conveys h hfits
  refine ⟨hl.legible, fun n hn path env before => ?_⟩
  rw [decode_eq_ok_iff]
  exact ⟨l, 0, hl.holds hn env, hform, Surroundings.affords_zero, rfl⟩

/-- A list of executables is recovered one by one. -/
theorem recovers_listOutline {l : List Executable} (h : listOutline l = .ok o)
    (hfits : ∀ x ∈ l, x.Fits depth) : Recovers (sequence decode (depth + 3)) o l := by
  obtain ⟨os, hos, h⟩ := bind_eq_ok_iff.mp h
  obtain rfl := Except.ok.inj h
  exact recovers_sequence (forall₂_flip_of_mem (mapM_eq_ok_iff.mp hos)
    fun x hx o ho => recovers_outline ho (hfits x hx))

/-- An executable that is present is no null, so that it is recovered as present. -/
theorem recovers_option_outline {x : Executable} (h : x.outline = .ok o) (hfits : x.Fits depth) :
    Recovers (option (decode (depth + 2))) o (some x) := by
  have hx := recovers_outline h hfits
  cases x with
  | command s =>
    obtain rfl := Except.ok.inj h
    exact recovers_option_string hx
  | invocation i =>
    obtain ⟨args, -, h⟩ := bind_eq_ok_iff.mp h
    obtain rfl := Except.ok.inj h
    exact recovers_option_mapping hx

end Executable

/-! ## Recipes -/

namespace RecipeDeclaration

/-- **A recipe that fits is recovered from what is written of it**, if the tags in its defaults are
legible. -/
theorem recovers_outline {r : RecipeDeclaration} (h : r.outline = .ok o) (hfits : r.Fits depth)
    (hlegible : ∀ v ∈ r.defaults.values, v.Legible) : Recovers (decode (depth + 4)) o r := by
  obtain ⟨defaults, hdefaults, h⟩ := bind_eq_ok_iff.mp h
  obtain ⟨setup, hsetup, h⟩ := bind_eq_ok_iff.mp h
  obtain rfl := Except.ok.inj h
  have hdefaults : Recovers (registry value (depth + 3)) defaults r.defaults :=
    Registry.recovers_outline hdefaults fun v hv o ho =>
      recovers_value (hfits.defaults v hv) ho (hlegible v hv)
  have hsetup := Executable.recovers_listOutline hsetup hfits.setup
  obtain ⟨description, params, defaults', check, setup'⟩ := r
  refine recovers_mapping (s := ⟨some description, some params, some defaults', some check,
    some setup'⟩) ?_ (gives_pure _)
  -- each entry sets its field, after those of the entries before
  exact .cons (recoversEntry_field (fun d => ⟨d, none, none, none, none⟩) rfl
      (fun _ _ => rfl) (fun _ => rfl) (recovers_optional description)) <|
    .cons (recoversEntry_field (fun p => ⟨some description, p, none, none, none⟩) rfl
      (fun _ _ => rfl) (fun _ => rfl) (recovers_strings _ params)) <|
    .cons (recoversEntry_field (fun d => ⟨some description, some params, d, none, none⟩) rfl
      (fun _ _ => rfl) (fun _ => rfl) hdefaults) <|
    .cons (recoversEntry_field
      (fun c => ⟨some description, some params, some defaults', c, none⟩) rfl
      (fun _ _ => rfl) (fun _ => rfl) (recovers_optional check)) <|
    .cons (recoversEntry_field
      (fun s => ⟨some description, some params, some defaults', some check, s⟩) rfl
      (fun _ _ => rfl) (fun _ => rfl) hsetup) .nil

end RecipeDeclaration

/-! ## Targets -/

namespace TargetDeclaration

/-- **A target that fits is recovered from what is written of it.** -/
theorem recovers_outline {t : TargetDeclaration} (h : t.outline = .ok o) (hfits : t.Fits depth) :
    Recovers (decode (depth + 4)) o t := by
  obtain ⟨setup, hsetup, h⟩ := bind_eq_ok_iff.mp h
  obtain ⟨recipe, hrecipe, h⟩ := bind_eq_ok_iff.mp h
  obtain ⟨check, hcheck, rfl⟩ : ∃ check,
      Recovers (option (Executable.decode (depth + 3))) check t.check ∧ o = .fields
        [("depends_on", .strings t.dependsOn), ("setup", setup), ("recipe", recipe),
          ("check", check)] := by
    cases ht : t.check with
    | none =>
      rw [ht] at h
      exact ⟨_, recovers_option_none _, (Except.ok.inj h).symm⟩
    | some x =>
      rw [ht] at h
      obtain ⟨check, hcheck, h⟩ := bind_eq_ok_iff.mp h
      exact ⟨check, Executable.recovers_option_outline hcheck (hfits.check x ht),
        (Except.ok.inj h).symm⟩
  have hsetup := Executable.recovers_listOutline hsetup hfits.setup
  have hrecipe := Executable.recovers_listOutline hrecipe hfits.recipe
  obtain ⟨dependsOn, setup', recipe', check'⟩ := t
  refine recovers_mapping (s := ⟨some dependsOn, some setup', some recipe', some check'⟩) ?_
    (gives_pure _)
  exact .cons (recoversEntry_field (fun d => ⟨d, none, none, none⟩) rfl
      (fun _ _ => rfl) (fun _ => rfl) (recovers_strings _ dependsOn)) <|
    .cons (recoversEntry_field (fun s => ⟨some dependsOn, s, none, none⟩) rfl
      (fun _ _ => rfl) (fun _ => rfl) hsetup) <|
    .cons (recoversEntry_field (fun r => ⟨some dependsOn, some setup', r, none⟩) rfl
      (fun _ _ => rfl) (fun _ => rfl) hrecipe) <|
    .cons (recoversEntry_field (fun c => ⟨some dependsOn, some setup', some recipe', c⟩) rfl
      (fun _ _ => rfl) (fun _ => rfl) hcheck) .nil

end TargetDeclaration

/-! ## Configurations -/

namespace Config

/-- **A configuration that fits is recovered from what is written of it**, if the tags in the
defaults of its recipes are legible. -/
theorem recovers_outline {c : Config} (h : c.outline = .ok o) (hfits : c.Fits depth)
    (hlegible : ∀ r ∈ c.recipes.values, ∀ v ∈ r.defaults.values, v.Legible) :
    Recovers (decode (depth + 6)) o c := by
  obtain ⟨recipes, hrecipes, h⟩ := bind_eq_ok_iff.mp h
  obtain ⟨targets, htargets, h⟩ := bind_eq_ok_iff.mp h
  obtain rfl := Except.ok.inj h
  have hrecipes : Recovers (registry RecipeDeclaration.decode (depth + 5)) recipes c.recipes :=
    Registry.recovers_outline hrecipes fun r hr o ho =>
      RecipeDeclaration.recovers_outline ho (hfits.recipes r hr) (hlegible r hr)
  have htargets : Recovers (registry TargetDeclaration.decode (depth + 5)) targets c.targets :=
    Registry.recovers_outline htargets fun t ht o ho =>
      TargetDeclaration.recovers_outline ho (hfits.targets t ht)
  obtain ⟨version, name, description, shell, recipes', targets'⟩ := c
  have hfinish : Gives (ofFields ⟨some version, some name, some description, some shell,
      some recipes', some targets'⟩) ⟨version, name, description, shell, recipes', targets'⟩ :=
    gives_pure _
  refine recovers_mapping ?_ hfinish
  exact .cons (recoversEntry_field (fun v => ⟨v, none, none, none, none, none⟩) rfl
      (fun _ _ => rfl) (fun _ => rfl) (recovers_string _ version)) <|
    .cons (recoversEntry_field (fun n => ⟨some version, n, none, none, none, none⟩) rfl
      (fun _ _ => rfl) (fun _ => rfl) (recovers_string _ name)) <|
    .cons (recoversEntry_field (fun d => ⟨some version, some name, d, none, none, none⟩) rfl
      (fun _ _ => rfl) (fun _ => rfl) (recovers_optional description)) <|
    .cons (recoversEntry_field
      (fun s => ⟨some version, some name, some description, s, none, none⟩) rfl
      (fun _ _ => rfl) (fun _ => rfl) (recovers_string _ shell)) <|
    .cons (recoversEntry_field
      (fun r => ⟨some version, some name, some description, some shell, r, none⟩) rfl
      (fun _ _ => rfl) (fun _ => rfl) hrecipes) <|
    .cons (recoversEntry_field
      (fun t => ⟨some version, some name, some description, some shell, some recipes', t⟩) rfl
      (fun _ _ => rfl) (fun _ => rfl) htargets) .nil

variable {text : String} {c : Config}

/-- All values of an accepted text fit. -/
theorem fits_of_parse (h : parse text = .ok c) : c.Fits 122 := by
  obtain ⟨path, hread⟩ := yields_of_parse h
  exact ensures_decode 122 hread

/-- **What is written of an accepted configuration is read again as the same one.** It can be
written unless a value in it cannot, for which there is one reason only. What is written is accepted
if the tags in its defaults are legible, and it declares the same configuration: the same recipes
and targets in the same order, commands and invocations, arguments by position or by name, and every
value of the same kind and content. -/
theorem parse_write (h : parse text = .ok c) :
    (∀ e, c.write = .error e ↔ ∃ v, c.Holds v ∧ Stuck true v) ∧
      ((∀ r ∈ c.recipes.values, ∀ v ∈ r.defaults.values, v.Legible) →
        ∀ written, c.write = .ok written → parse written = .ok c) := by
  refine ⟨fun _ => write_eq_error_iff, fun hlegible written hwritten => ?_⟩
  obtain ⟨o, ho, rfl⟩ := map_eq_ok_iff.mp hwritten
  have hrecovers := recovers_outline ho (fits_of_parse h) hlegible
  obtain ⟨recipes, -, ho⟩ := bind_eq_ok_iff.mp ho
  obtain ⟨targets, -, ho⟩ := bind_eq_ok_iff.mp ho
  obtain rfl := Except.ok.inj ho
  exact decode_render hrecovers

/-- A text with values of several kinds, and with an invocation. -/
def textWithValues : String :=
  "version: 1\nname: t\nrecipes:\n  r:\n    defaults:\n" ++
  "      p: [~, 'true', 007, 1.5e3, -.inf]\n      q: !unit \x7b2: \"a\\n b\"\x7d\n" ++
  "targets:\n  base:\n    check: \x7brecipe: r, args: \x7bq: '~'\x7d\x7d\n"

/-- The configuration that it declares: a string is one by its quotes or by its leading zeros. -/
def withValues : Config where
  version := "1"
  name := "t"
  recipes := ⟨[("r", { defaults := ⟨[
    ("p", .sequence [.null, .string "true", .string "007",
      .float (.finite false 6597069766656000 (-42)), .float (.infinite true)]),
    ("q", .tagged "unit" (.mapping [(.integer 2, .string "a\n b")]))], by decide⟩ })], by decide⟩
  targets := ⟨[("base", {
    check := some (.invocation ⟨"r", .named ⟨[("q", .string "~")], by decide⟩⟩) })], by decide⟩

/-- The lines of the configuration as it is written: in other quotes, and with a block for the text
that has two lines itself. -/
def writtenLines : List String := [
  "version: '1'\n", "name: t\n", "description: null\n", "shell: sh\n", "recipes:\n", "  r:\n",
  "    description: null\n", "    params: []\n", "    defaults:\n", "      p:\n",
  "      - null\n", "      - 'true'\n", "      - '007'\n", "      - 1500.0\n", "      - -.inf\n",
  "      q: !unit\n", "        2: |-\n", "          a\n", "           b\n", "    check: null\n",
  "    setup: []\n", "targets:\n", "  base:\n", "    depends_on: []\n", "    setup: []\n",
  "    recipe: []\n", "    check:\n", "      recipe: r\n", "      args:\n", "        q: '~'\n"]

theorem parse_write_several_kinds :
    parse textWithValues = .ok withValues ∧ withValues.write = .ok (String.join writtenLines) ∧
      (∀ r ∈ withValues.recipes.values, ∀ v ∈ r.defaults.values, v.Legible) ∧
      parse (String.join writtenLines) = .ok withValues := by
  have hparse : (parse textWithValues).toOption = some withValues := by decide +kernel
  have hparse := eq_ok_of_toOption_eq_some hparse
  have hwrite : withValues.write = .ok (String.join writtenLines) := by
    -- character by character, since texts are compared by their bytes
    have hchars : (withValues.outline.map (Outline.node .top)).toOption =
        some (writtenLines.flatMap String.toList) := by
      decide +kernel
    obtain ⟨o, ho, hchars⟩ := map_eq_ok_iff.mp (eq_ok_of_toOption_eq_some hchars)
    refine map_eq_ok_iff.mpr ⟨o, ho, ?_⟩
    rw [Outline.render, hchars, ← String.toList_join, String.ofList_toList]
  have hlegible : ∀ r ∈ withValues.recipes.values, ∀ v ∈ r.defaults.values, v.Legible := by
    decide +kernel
  exact ⟨hparse, hwrite, hlegible, (parse_write hparse).2 hlegible _ hwrite⟩

end Config

end Provision
