import Provision.Config.Executable

/-!
# Configurations

What the author of a configuration declares: targets that a machine should have installed,
and recipes that say how. Everything keeps the order in which it is written.

Mirrors `SystemconfFile`, `TargetDecl` and `RecipeDecl`. The ordered maps of the program are
registries, whose names are distinct by their type.
-/

namespace Provision

open Yaml (Value)

/-- A recipe as it is written: formal parameters, a template to check with, and executables
to install with. -/
structure RecipeDeclaration where
  description : Option String := none
  /-- The formal parameters, in the order of positional arguments. -/
  params : List String := []
  /-- The values of parameters that a caller leaves out. -/
  defaults : Registry Value := ∅
  check : Option String := none
  /-- Templates and invocations of other recipes. -/
  setup : List Executable := []
deriving DecidableEq

/-- A target as it is written. -/
structure TargetDeclaration where
  /-- The targets that have to be installed first. -/
  dependsOn : List String := []
  /-- What installs the target, where that differs from `recipe`. -/
  setup : List Executable := []
  /-- What checks the target and, without `setup`, installs it. -/
  recipe : List Executable := []
  /-- What checks the target, where that differs from `recipe`. -/
  check : Option Executable := none
deriving DecidableEq

/-- A configuration as it is written. -/
structure Config where
  version : String
  name : String
  description : Option String := none
  /-- The program that runs commands, called with `-c` and the command. -/
  shell : String := "sh"
  recipes : Registry RecipeDeclaration := ∅
  targets : Registry TargetDeclaration := ∅
deriving DecidableEq

end Provision
