import Provision.Proofs.Config.Declared
import Provision.Proofs.Config.Grammar
import Provision.Proofs.Config.Write
import Provision.Proofs.Yaml.Fit

/-!
# Declarations that are read fit

Every default and every argument of a configuration comes from a node of its text, so that it fits:
defaults as values that are read strictly, arguments as values that are read loosely. They nest as
deep as is left below the declarations around them.

> `Executable.ensures_decode`: the arguments of an executable fit two levels below it;
> `Config.ensures_decode`: all values of a configuration fit.
-/

namespace Provision

open Yaml (Value Loose Node Surroundings)
open Yaml.Decode

variable {env : Surroundings} {depth : Nat}

/-! ## Executables -/

/-- Arguments that are made of what is kept of a node fit one level deeper. -/
theorem Arguments.Form.fits {n : Node} {l : Loose} {a : Arguments} {k : Nat} (h : Form l a)
    (hl : Yaml.Decode.Holds env (depth + 1) n l k) :
    ∀ v, a.Holds v → v.Fits true depth := by
  intro v hv
  cases h with
  | positional each =>
    obtain ⟨l, hmem, hvalue⟩ := exists_mem_of_forall₂ each v hv
    obtain ⟨inner, hinner, hparts⟩ := hl.of_sequence
    obtain ⟨n', j, hheld⟩ := hparts l hmem
    exact Nat.succ.inj hinner ▸ fits_of_holds hheld hvalue
  | named each =>
    obtain ⟨⟨name, v⟩, hmem, rfl⟩ := List.mem_map.mp hv
    obtain ⟨before, after, rfl, -⟩ := (Registry.get?_ofList_eq_some_iff _ _ _).mp
      ((Registry.get?_eq_some_iff _ _ _).mpr hmem)
    obtain ⟨e, he, -, hvalue⟩ := exists_mem_of_forall₂ each (name, v) (by simp)
    obtain ⟨inner, hinner, hparts⟩ := hl.of_mapping
    obtain ⟨-, n', j, hheld⟩ := hparts e he
    exact Nat.succ.inj hinner ▸ fits_of_holds hheld hvalue

/-- Whether the arguments of an executable fit. -/
def Executable.Fits (depth : Nat) (x : Executable) : Prop := ∀ v, x.Holds v → v.Fits true depth

/-- The arguments of an executable stand two levels below it. -/
theorem Executable.Form.fits {n : Node} {l : Loose} {x : Executable} {k : Nat} (h : Form l x)
    (hl : Yaml.Decode.Holds env (depth + 2) n l k) : x.Fits depth := by
  intro v hv
  cases h with
  | command text => exact hv.elim
  | invocation said =>
    cases said with
    | fields => exact absurd hv List.not_mem_nil
    | recipe => exact absurd hv List.not_mem_nil
    | @fieldsWith es _ k' l _ _ _ _ oneArgs said =>
      have hmem : (k', l) ∈ es := by
        have h : (k', l) ∈ Invocation.entriesOf "args" es := by
          rw [oneArgs]
          exact List.mem_cons_self
        exact List.mem_of_mem_filter h
      obtain ⟨inner, hinner, hparts⟩ := hl.of_mapping
      obtain ⟨-, n', j, hheld⟩ := hparts _ hmem
      obtain rfl := Nat.succ.inj hinner
      exact said.fits hheld v hv
    | recipeWith said =>
      obtain ⟨inner, hinner, hparts⟩ := hl.of_sequence
      obtain ⟨n', j, hheld⟩ := hparts _ (List.mem_cons_of_mem _ List.mem_cons_self)
      obtain rfl := Nat.succ.inj hinner
      exact said.fits hheld v hv

/-- **The arguments of an executable that has been read fit.** -/
theorem Executable.ensures_decode (depth : Nat) : Ensures (decode (depth + 2)) (Fits depth) := by
  rintro env t x ⟨before, after, h⟩
  obtain ⟨k, ⟨l, hl, hform⟩, -, -⟩ := (decode_exactly (depth + 2) t before x after).mp h
  exact hform.fits hl

/-! ## Recipes -/

namespace RecipeDeclaration

/-- Whether the defaults of a recipe and the arguments in it fit. -/
structure Fits (depth : Nat) (r : RecipeDeclaration) : Prop where
  defaults : ∀ v ∈ r.defaults.values, v.Fits false (depth + 2)
  setup : ∀ x ∈ r.setup, x.Fits depth

/-- Whether the fields that have been given so far fit. -/
structure Fields.Fit (depth : Nat) (f : Fields) : Prop where
  defaults : ∀ r ∈ f.defaults, ∀ v ∈ r.values, v.Fits false (depth + 2)
  setup : ∀ l ∈ f.setup, ∀ x ∈ l, x.Fits depth

/-- The fields of a recipe fit with each entry that is read. -/
theorem fit_of_reads {f f' : Fields} {k v : Node}
    (h : EntryReads (decodeField (depth + 3)) env f k v f') (hf : f.Fit depth) : f'.Fit depth := by
  obtain ⟨path, path', h⟩ := h
  obtain ⟨name, hname, h⟩ := reads_bind h
  have hknown : name = "description" ∨ name = "params" ∨ name = "defaults" ∨ name = "check" ∨
      name = "setup" := by
    simpa [fieldNames] using (reads_fieldName hname).2
  rcases hknown with rfl | rfl | rfl | rfl | rfl
  all_goals obtain ⟨-, x, hx, rfl⟩ := reads_set h
  · exact ⟨hf.defaults, hf.setup⟩
  · exact ⟨hf.defaults, hf.setup⟩
  · exact ⟨fun r hr => Option.some.inj hr ▸ ensures_registry (ensures_value (depth + 2)) hx,
    hf.setup⟩
  · exact ⟨hf.defaults, hf.setup⟩
  · exact ⟨hf.defaults, fun l hl =>
      Option.some.inj hl ▸ ensures_sequence (Executable.ensures_decode depth) hx⟩

/-- **A recipe that has been read fits.** -/
theorem ensures_decode (depth : Nat) : Ensures (decode (depth + 4)) (Fits depth) := by
  refine ensures_mapping (I := Fields.Fit depth) ⟨nofun, nofun⟩ fit_of_reads ?_
  intro env f r hf h
  obtain rfl := reads_pure h
  obtain ⟨description, params, defaults, check, setup⟩ := f
  refine ⟨?_, ?_⟩
  · cases defaults with
    | none => exact nofun
    | some r => exact hf.defaults r rfl
  · cases setup with
    | none => exact nofun
    | some l => exact hf.setup l rfl

end RecipeDeclaration

/-! ## Targets -/

namespace TargetDeclaration

/-- Whether the arguments in a target fit. What checks it is in no list, but a field. -/
structure Fits (depth : Nat) (t : TargetDeclaration) : Prop where
  setup : ∀ x ∈ t.setup, x.Fits depth
  recipe : ∀ x ∈ t.recipe, x.Fits depth
  check : ∀ x ∈ t.check, x.Fits (depth + 1)

/-- Whether the fields that have been given so far fit. -/
structure Fields.Fit (depth : Nat) (f : Fields) : Prop where
  setup : ∀ l ∈ f.setup, ∀ x ∈ l, x.Fits depth
  recipe : ∀ l ∈ f.recipe, ∀ x ∈ l, x.Fits depth
  check : ∀ o ∈ f.check, ∀ x ∈ o, x.Fits (depth + 1)

/-- The fields of a target fit with each entry that is read. -/
theorem fit_of_reads {f f' : Fields} {k v : Node}
    (h : EntryReads (decodeField (depth + 3)) env f k v f') (hf : f.Fit depth) : f'.Fit depth := by
  obtain ⟨path, path', h⟩ := h
  obtain ⟨name, hname, h⟩ := reads_bind h
  have hknown : name = "depends_on" ∨ name = "setup" ∨ name = "recipe" ∨ name = "check" := by
    simpa [fieldNames] using (reads_fieldName hname).2
  rcases hknown with rfl | rfl | rfl | rfl
  all_goals obtain ⟨-, x, hx, rfl⟩ := reads_set h
  · exact ⟨hf.setup, hf.recipe, hf.check⟩
  · exact ⟨fun l hl => Option.some.inj hl ▸ ensures_sequence (Executable.ensures_decode depth) hx,
      hf.recipe, hf.check⟩
  · exact ⟨hf.setup,
      fun l hl => Option.some.inj hl ▸ ensures_sequence (Executable.ensures_decode depth) hx,
      hf.check⟩
  · exact ⟨hf.setup, hf.recipe,
      fun o ho => Option.some.inj ho ▸ ensures_option (Executable.ensures_decode (depth + 1)) hx⟩

/-- **A target that has been read fits.** -/
theorem ensures_decode (depth : Nat) : Ensures (decode (depth + 4)) (Fits depth) := by
  refine ensures_mapping (I := Fields.Fit depth) ⟨nofun, nofun, nofun⟩ fit_of_reads ?_
  intro env f t hf h
  obtain rfl := reads_pure h
  obtain ⟨dependsOn, setup, recipe, check⟩ := f
  refine ⟨?_, ?_, ?_⟩
  · cases setup with
    | none => exact nofun
    | some l => exact hf.setup l rfl
  · cases recipe with
    | none => exact nofun
    | some l => exact hf.recipe l rfl
  · cases check with
    | none => exact nofun
    | some o => exact hf.check o rfl

end TargetDeclaration

/-! ## Configurations -/

namespace Config

/-- Whether all values of a configuration fit. -/
structure Fits (depth : Nat) (c : Config) : Prop where
  recipes : ∀ r ∈ c.recipes.values, r.Fits depth
  targets : ∀ t ∈ c.targets.values, t.Fits depth

/-- Whether the fields that have been given so far fit. -/
structure Fields.Fit (depth : Nat) (f : Fields) : Prop where
  recipes : ∀ r ∈ f.recipes, ∀ x ∈ r.values, x.Fits depth
  targets : ∀ r ∈ f.targets, ∀ x ∈ r.values, x.Fits depth

/-- The fields of a configuration fit with each entry that is read. -/
theorem fit_of_reads {f f' : Fields} {k v : Node}
    (h : EntryReads (decodeField (depth + 5)) env f k v f') (hf : f.Fit depth) : f'.Fit depth := by
  obtain ⟨path, path', h⟩ := h
  obtain ⟨name, hname, h⟩ := reads_bind h
  have hknown : name = "version" ∨ name = "name" ∨ name = "description" ∨ name = "shell" ∨
      name = "recipes" ∨ name = "targets" := by
    simpa [fieldNames] using (reads_fieldName hname).2
  rcases hknown with rfl | rfl | rfl | rfl | rfl | rfl
  all_goals obtain ⟨-, x, hx, rfl⟩ := reads_set h
  · exact ⟨hf.recipes, hf.targets⟩
  · exact ⟨hf.recipes, hf.targets⟩
  · exact ⟨hf.recipes, hf.targets⟩
  · exact ⟨hf.recipes, hf.targets⟩
  · exact ⟨fun r hr => Option.some.inj hr ▸
      ensures_registry (RecipeDeclaration.ensures_decode depth) hx, hf.targets⟩
  · exact ⟨hf.recipes, fun r hr => Option.some.inj hr ▸
      ensures_registry (TargetDeclaration.ensures_decode depth) hx⟩

/-- **A configuration that has been read fits.** -/
theorem ensures_decode (depth : Nat) : Ensures (decode (depth + 6)) (Fits depth) := by
  refine ensures_mapping (I := Fields.Fit depth) ⟨nofun, nofun⟩ fit_of_reads ?_
  intro env f c hf h
  obtain ⟨version, -, h⟩ := reads_bind h
  obtain ⟨name, -, h⟩ := reads_bind h
  obtain rfl := reads_pure h
  obtain ⟨_, _, _, _, recipes, targets⟩ := f
  refine ⟨?_, ?_⟩
  · cases recipes with
    | none => exact nofun
    | some r => exact hf.recipes r rfl
  · cases targets with
    | none => exact nofun
    | some r => exact hf.targets r rfl

end Config

end Provision
