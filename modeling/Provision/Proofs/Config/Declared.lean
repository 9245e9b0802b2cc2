import Provision.Proofs.Config.Executable

/-!
# What a configuration says

Which nodes say which declarations, field by field. What decoders have made of the entries of a
mapping comes first; the relations that follow do not speak of decoders, and all that is decoded is
in them.

> `Config.fieldsMade_of_makes`: what has been decoded has been made of the fields of its node;
> `Config.saidBy_of_makes`: what has been decoded is what its node says.
-/

namespace Provision

open Yaml (Value Decode Node Surroundings)
open Yaml.Decode

variable {env : Surroundings} {n : Node}

/-! ## Declarations -/

namespace TargetDeclaration

/-- What the entries of a mapping say of the fields of a target. -/
structure FieldsSaidBy (env : Surroundings) (es : List (Node × Node)) (f : Fields) : Prop where
  known : ∀ e ∈ es, ∃ name ∈ fieldNames, env.fieldName? e.1 = some name
  dependsOn : FieldRead env.fieldName? "depends_on" (StringsSaidBy env) es f.dependsOn
  setup : FieldRead env.fieldName? "setup" (Executable.ListSaidBy env) es f.setup
  recipe : FieldRead env.fieldName? "recipe" (Executable.ListSaidBy env) es f.recipe
  check : FieldRead env.fieldName? "check" (OptionRead env (Executable.SaidBy env)) es f.check

/-- Whether a node says a target. -/
def SaidBy (env : Surroundings) (n : Node) (t : TargetDeclaration) : Prop :=
  ∃ es f, env.entries? n = some es ∧ FieldsSaidBy env es f ∧ t = ofFields f

/-- What decoders have made of the entries of a mapping. -/
structure FieldsMade (env : Surroundings) (es : List (Node × Node)) (f : Fields) : Prop where
  known : ∀ e ∈ es, ∃ name ∈ fieldNames, env.fieldName? e.1 = some name
  dependsOn : FieldRead env.fieldName? "depends_on" (Makes strings env) es f.dependsOn
  setup : FieldRead env.fieldName? "setup" (Makes (sequence Executable.decode) env) es f.setup
  recipe : FieldRead env.fieldName? "recipe" (Makes (sequence Executable.decode) env) es f.recipe
  check : FieldRead env.fieldName? "check"
    (Makes (fun depth => option (Executable.decode depth)) env) es f.check

/-- One entry of a target's mapping gives exactly one of its known fields. -/
theorem fieldSteps_of_reads {depth : Nat} {f f' : Fields} {k v : Node}
    (h : EntryReads (decodeField depth) env f k v f') :
    (∃ name ∈ fieldNames, env.fieldName? k = some name) ∧
    FieldStep env.fieldName? "depends_on" (Makes strings env) k v f.dependsOn f'.dependsOn ∧
    FieldStep env.fieldName? "setup" (Makes (sequence Executable.decode) env) k v
      f.setup f'.setup ∧
    FieldStep env.fieldName? "recipe" (Makes (sequence Executable.decode) env) k v
      f.recipe f'.recipe ∧
    FieldStep env.fieldName? "check" (Makes (fun depth => option (Executable.decode depth)) env) k v
      f.check f'.check := by
  obtain ⟨path, path', h⟩ := h
  obtain ⟨name, hname, h⟩ := reads_bind h
  obtain ⟨hname, hknown⟩ := reads_fieldName hname
  refine ⟨⟨name, hknown, hname⟩, ?_⟩
  have hknown : name = "depends_on" ∨ name = "setup" ∨ name = "recipe" ∨ name = "check" := by
    simpa [fieldNames] using hknown
  -- the field that is named is given, and the others stay
  rcases hknown with rfl | rfl | rfl | rfl
  all_goals
    obtain ⟨hnone, x, hx, rfl⟩ := reads_set h
    refine ⟨?_, ?_, ?_, ?_⟩ <;>
      first | exact .other hname (by decide) | exact .given hname hnone ⟨depth, path', hx⟩

/-- A target is read from a mapping: its fields are gathered and the absent ones take their
defaults. -/
theorem fieldsMade_of_makes {t : TargetDeclaration} (h : Makes decode env n t) :
    ∃ es f, env.entries? n = some es ∧ FieldsMade env es f ∧ t = ofFields f := by
  obtain ⟨depth, path, h⟩ := h
  obtain ⟨es, inner, f, hes, -, hsteps, h⟩ := reads_mapping h
  refine ⟨es, f, hes, ⟨?_, ?_, ?_, ?_, ?_⟩, reads_pure h⟩
  · exact hsteps.forall_mem fun h => (fieldSteps_of_reads h).1
  · exact hsteps.field Fields.dependsOn (fun h => (fieldSteps_of_reads h).2.1) rfl
  · exact hsteps.field Fields.setup (fun h => (fieldSteps_of_reads h).2.2.1) rfl
  · exact hsteps.field Fields.recipe (fun h => (fieldSteps_of_reads h).2.2.2.1) rfl
  · exact hsteps.field Fields.check (fun h => (fieldSteps_of_reads h).2.2.2.2) rfl

/-- What the gathered fields of a target say, each by itself. -/
theorem FieldsMade.saidBy {es : List (Node × Node)} {f : Fields} (h : FieldsMade env es f) :
    FieldsSaidBy env es f where
  known := h.known
  dependsOn := h.dependsOn.imp stringsSaidBy_of_makes
  setup := h.setup.imp Executable.listSaidBy_of_makes
  recipe := h.recipe.imp Executable.listSaidBy_of_makes
  check := h.check.imp fun h => optionRead_of_makes Executable.saidBy_of_makes h

/-- A target that is read from a node is said by that node. -/
theorem saidBy_of_makes {t : TargetDeclaration} (h : Makes decode env n t) : SaidBy env n t := by
  obtain ⟨es, f, hes, hmade, ht⟩ := fieldsMade_of_makes h
  exact ⟨es, f, hes, hmade.saidBy, ht⟩

end TargetDeclaration

namespace RecipeDeclaration

/-- What the entries of a mapping say of the fields of a recipe. -/
structure FieldsSaidBy (env : Surroundings) (es : List (Node × Node)) (f : Fields) : Prop where
  known : ∀ e ∈ es, ∃ name ∈ fieldNames, env.fieldName? e.1 = some name
  description : FieldRead env.fieldName? "description"
    (OptionRead env (StringSaidBy env)) es f.description
  params : FieldRead env.fieldName? "params" (StringsSaidBy env) es f.params
  defaults : FieldRead env.fieldName? "defaults" (Mapped (Makes value env) env) es f.defaults
  check : FieldRead env.fieldName? "check" (OptionRead env (StringSaidBy env)) es
    f.check
  setup : FieldRead env.fieldName? "setup" (Executable.ListSaidBy env) es f.setup

/-- Whether a node says a recipe. -/
def SaidBy (env : Surroundings) (n : Node) (r : RecipeDeclaration) : Prop :=
  ∃ es f, env.entries? n = some es ∧ FieldsSaidBy env es f ∧ r = ofFields f

/-- What decoders have made of the entries of a mapping. -/
structure FieldsMade (env : Surroundings) (es : List (Node × Node)) (f : Fields) : Prop where
  known : ∀ e ∈ es, ∃ name ∈ fieldNames, env.fieldName? e.1 = some name
  description : FieldRead env.fieldName? "description"
    (Makes (fun _ => option (string "a string")) env) es f.description
  params : FieldRead env.fieldName? "params" (Makes strings env) es f.params
  defaults : FieldRead env.fieldName? "defaults" (Makes (registry value) env) es f.defaults
  check : FieldRead env.fieldName? "check"
    (Makes (fun _ => option (string "a string")) env) es f.check
  setup : FieldRead env.fieldName? "setup" (Makes (sequence Executable.decode) env) es f.setup

/-- One entry of a recipe's mapping gives exactly one of its known fields. -/
theorem fieldSteps_of_reads {depth : Nat} {f f' : Fields} {k v : Node}
    (h : EntryReads (decodeField depth) env f k v f') :
    (∃ name ∈ fieldNames, env.fieldName? k = some name) ∧
    FieldStep env.fieldName? "description" (Makes (fun _ => option (string "a string")) env) k v
      f.description f'.description ∧
    FieldStep env.fieldName? "params" (Makes strings env) k v f.params f'.params ∧
    FieldStep env.fieldName? "defaults" (Makes (registry value) env) k v f.defaults f'.defaults ∧
    FieldStep env.fieldName? "check" (Makes (fun _ => option (string "a string")) env) k v
      f.check f'.check ∧
    FieldStep env.fieldName? "setup" (Makes (sequence Executable.decode) env) k v
      f.setup f'.setup := by
  obtain ⟨path, path', h⟩ := h
  obtain ⟨name, hname, h⟩ := reads_bind h
  obtain ⟨hname, hknown⟩ := reads_fieldName hname
  refine ⟨⟨name, hknown, hname⟩, ?_⟩
  have hknown : name = "description" ∨ name = "params" ∨ name = "defaults" ∨ name = "check" ∨
      name = "setup" := by
    simpa [fieldNames] using hknown
  rcases hknown with rfl | rfl | rfl | rfl | rfl
  all_goals
    obtain ⟨hnone, x, hx, rfl⟩ := reads_set h
    refine ⟨?_, ?_, ?_, ?_, ?_⟩ <;>
      first | exact .other hname (by decide) | exact .given hname hnone ⟨depth, path', hx⟩

/-- A recipe is read from a mapping: its fields are gathered and the absent ones take their
defaults. -/
theorem fieldsMade_of_makes {r : RecipeDeclaration} (h : Makes decode env n r) :
    ∃ es f, env.entries? n = some es ∧ FieldsMade env es f ∧ r = ofFields f := by
  obtain ⟨depth, path, h⟩ := h
  obtain ⟨es, inner, f, hes, -, hsteps, h⟩ := reads_mapping h
  refine ⟨es, f, hes, ⟨?_, ?_, ?_, ?_, ?_, ?_⟩, reads_pure h⟩
  · exact hsteps.forall_mem fun h => (fieldSteps_of_reads h).1
  · exact hsteps.field Fields.description (fun h => (fieldSteps_of_reads h).2.1) rfl
  · exact hsteps.field Fields.params (fun h => (fieldSteps_of_reads h).2.2.1) rfl
  · exact hsteps.field Fields.defaults (fun h => (fieldSteps_of_reads h).2.2.2.1) rfl
  · exact hsteps.field Fields.check (fun h => (fieldSteps_of_reads h).2.2.2.2.1) rfl
  · exact hsteps.field Fields.setup (fun h => (fieldSteps_of_reads h).2.2.2.2.2) rfl

/-- What the gathered fields of a recipe say, each by itself. -/
theorem FieldsMade.saidBy {es : List (Node × Node)} {f : Fields} (h : FieldsMade env es f) :
    FieldsSaidBy env es f where
  known := h.known
  description := h.description.imp fun h => optionRead_of_makes stringSaidBy_of_makes h
  params := h.params.imp stringsSaidBy_of_makes
  defaults := h.defaults.imp mapped_of_makes
  check := h.check.imp fun h => optionRead_of_makes stringSaidBy_of_makes h
  setup := h.setup.imp Executable.listSaidBy_of_makes

/-- A recipe that is read from a node is said by that node. -/
theorem saidBy_of_makes {r : RecipeDeclaration} (h : Makes decode env n r) : SaidBy env n r := by
  obtain ⟨es, f, hes, hmade, hr⟩ := fieldsMade_of_makes h
  exact ⟨es, f, hes, hmade.saidBy, hr⟩

end RecipeDeclaration

namespace Config

/-- What the entries of a mapping say of the fields of a configuration. -/
structure FieldsSaidBy (env : Surroundings) (es : List (Node × Node)) (f : Fields) : Prop where
  known : ∀ e ∈ es, ∃ name ∈ fieldNames, env.fieldName? e.1 = some name
  version : FieldRead env.fieldName? "version" (StringSaidBy env) es f.version
  name : FieldRead env.fieldName? "name" (StringSaidBy env) es f.name
  description : FieldRead env.fieldName? "description"
    (OptionRead env (StringSaidBy env)) es f.description
  shell : FieldRead env.fieldName? "shell" (StringSaidBy env) es f.shell
  recipes : FieldRead env.fieldName? "recipes" (Mapped (RecipeDeclaration.SaidBy env) env) es
    f.recipes
  targets : FieldRead env.fieldName? "targets" (Mapped (TargetDeclaration.SaidBy env) env) es
    f.targets

/-- Whether a node says a configuration. -/
def SaidBy (env : Surroundings) (n : Node) (c : Config) : Prop :=
  ∃ es f, env.entries? n = some es ∧ FieldsSaidBy env es f ∧
    f.version = some c.version ∧ f.name = some c.name ∧ c.description = f.description.getD none ∧
    c.shell = f.shell.getD "sh" ∧ c.recipes = f.recipes.getD ∅ ∧ c.targets = f.targets.getD ∅

/-- What decoders have made of the entries of a mapping. -/
structure FieldsMade (env : Surroundings) (es : List (Node × Node)) (f : Fields) : Prop where
  known : ∀ e ∈ es, ∃ name ∈ fieldNames, env.fieldName? e.1 = some name
  version : FieldRead env.fieldName? "version" (Makes (fun _ => string "a string") env) es
    f.version
  name : FieldRead env.fieldName? "name" (Makes (fun _ => string "a string") env) es f.name
  description : FieldRead env.fieldName? "description"
    (Makes (fun _ => option (string "a string")) env) es f.description
  shell : FieldRead env.fieldName? "shell" (Makes (fun _ => string "a string") env) es f.shell
  recipes : FieldRead env.fieldName? "recipes" (Makes (registry RecipeDeclaration.decode) env) es
    f.recipes
  targets : FieldRead env.fieldName? "targets" (Makes (registry TargetDeclaration.decode) env) es
    f.targets

/-- One entry of the document's mapping gives exactly one of its known fields. -/
theorem fieldSteps_of_reads {depth : Nat} {f f' : Fields} {k v : Node}
    (h : EntryReads (decodeField depth) env f k v f') :
    (∃ name ∈ fieldNames, env.fieldName? k = some name) ∧
    FieldStep env.fieldName? "version" (Makes (fun _ => string "a string") env) k v
      f.version f'.version ∧
    FieldStep env.fieldName? "name" (Makes (fun _ => string "a string") env) k v
      f.name f'.name ∧
    FieldStep env.fieldName? "description" (Makes (fun _ => option (string "a string")) env) k v
      f.description f'.description ∧
    FieldStep env.fieldName? "shell" (Makes (fun _ => string "a string") env) k v
      f.shell f'.shell ∧
    FieldStep env.fieldName? "recipes" (Makes (registry RecipeDeclaration.decode) env) k v
      f.recipes f'.recipes ∧
    FieldStep env.fieldName? "targets" (Makes (registry TargetDeclaration.decode) env) k v
      f.targets f'.targets := by
  obtain ⟨path, path', h⟩ := h
  obtain ⟨name, hname, h⟩ := reads_bind h
  obtain ⟨hname, hknown⟩ := reads_fieldName hname
  refine ⟨⟨name, hknown, hname⟩, ?_⟩
  have hknown : name = "version" ∨ name = "name" ∨ name = "description" ∨ name = "shell" ∨
      name = "recipes" ∨ name = "targets" := by
    simpa [fieldNames] using hknown
  rcases hknown with rfl | rfl | rfl | rfl | rfl | rfl
  all_goals
    obtain ⟨hnone, x, hx, rfl⟩ := reads_set h
    refine ⟨?_, ?_, ?_, ?_, ?_, ?_⟩ <;>
      first | exact .other hname (by decide) | exact .given hname hnone ⟨depth, path', hx⟩

/-- A required field that is read is there. -/
theorem reads_required {α : Type} {name : String} {given : Option α} {x : α}
    (h : (required name given).Reads env x) : given = some x := by
  unfold required at h
  split at h
  next => exact congrArg some (reads_pure h).symm
  next => exact absurd h not_reads_complain

/-- What has been decoded has been made of the fields of its node, of which two are required. -/
theorem fieldsMade_of_makes {c : Config} (h : Makes decode env n c) :
    ∃ es f, env.entries? n = some es ∧ FieldsMade env es f ∧
      f.version = some c.version ∧ f.name = some c.name ∧
      c.description = f.description.getD none ∧ c.shell = f.shell.getD "sh" ∧
      c.recipes = f.recipes.getD ∅ ∧ c.targets = f.targets.getD ∅ := by
  obtain ⟨depth, path, h⟩ := h
  obtain ⟨es, inner, f, hes, -, hsteps, h⟩ := reads_mapping h
  obtain ⟨version, hversion, h⟩ := reads_bind h
  obtain ⟨name, hname, h⟩ := reads_bind h
  obtain rfl := reads_pure h
  refine ⟨es, f, hes, ⟨?_, ?_, ?_, ?_, ?_, ?_, ?_⟩, reads_required hversion, reads_required hname,
    rfl, rfl, rfl, rfl⟩
  · exact hsteps.forall_mem fun h => (fieldSteps_of_reads h).1
  · exact hsteps.field Fields.version (fun h => (fieldSteps_of_reads h).2.1) rfl
  · exact hsteps.field Fields.name (fun h => (fieldSteps_of_reads h).2.2.1) rfl
  · exact hsteps.field Fields.description (fun h => (fieldSteps_of_reads h).2.2.2.1) rfl
  · exact hsteps.field Fields.shell (fun h => (fieldSteps_of_reads h).2.2.2.2.1) rfl
  · exact hsteps.field Fields.recipes (fun h => (fieldSteps_of_reads h).2.2.2.2.2.1) rfl
  · exact hsteps.field Fields.targets (fun h => (fieldSteps_of_reads h).2.2.2.2.2.2) rfl

/-- What the gathered fields of a configuration say, each by itself. -/
theorem FieldsMade.saidBy {es : List (Node × Node)} {f : Fields} (h : FieldsMade env es f) :
    FieldsSaidBy env es f where
  known := h.known
  version := h.version.imp stringSaidBy_of_makes
  name := h.name.imp stringSaidBy_of_makes
  description := h.description.imp fun h => optionRead_of_makes stringSaidBy_of_makes h
  shell := h.shell.imp stringSaidBy_of_makes
  recipes := h.recipes.imp fun h => (mapped_of_makes h).imp RecipeDeclaration.saidBy_of_makes
  targets := h.targets.imp fun h => (mapped_of_makes h).imp TargetDeclaration.saidBy_of_makes

/-- What has been decoded is said by its node. -/
theorem saidBy_of_makes {c : Config} (h : Makes decode env n c) : SaidBy env n c := by
  obtain ⟨es, f, hes, hmade, hfields⟩ := fieldsMade_of_makes h
  exact ⟨es, f, hes, hmade.saidBy, hfields⟩

end Config

end Provision
