import Provision.Registry
import Provision.Yaml.Value

/-!
# Executables

A procedure is a list of executables: commands for the shell, and invocations of recipes
with arguments by position or by name.

> `Executable.text`: an executable as listings show it.

Mirrors `Executable`, `RecipeInvocation` and `RecipeArgs` with their `fmt`.
-/

namespace Provision

open Yaml (Value)

/-- The arguments of an invocation. -/
inductive Arguments
  | positional (values : List Value)
  | named (values : Registry Value)
deriving DecidableEq

namespace Arguments

/-- No arguments. -/
def empty : Arguments := .positional []

instance : Inhabited Arguments := ⟨empty⟩

/-- Whether there are no arguments. -/
def isEmpty : Arguments → Bool
  | positional values => values.isEmpty
  | named values => values.isEmpty

/-- The arguments as a call shows them. -/
def text : Arguments → String
  | positional values => ", ".intercalate (values.map Value.text)
  | named values => ", ".intercalate (values.entries.map fun e => e.1 ++ "=" ++ e.2.text)

end Arguments

/-- A call of a recipe. -/
structure Invocation where
  recipe : String
  arguments : Arguments := .empty
deriving DecidableEq

/-- The call as listings show it. -/
def Invocation.text (i : Invocation) : String := s!"{i.recipe}({i.arguments.text})"

/-- A step of a procedure. -/
inductive Executable
  | command (text : String)
  | invocation (call : Invocation)
deriving DecidableEq

namespace Executable

/-- The executable as listings show it. -/
def text : Executable → String
  | command s => s
  | invocation i => i.text

/-- The recipe that an executable invokes. -/
def invoked? : Executable → Option String
  | command _ => none
  | invocation i => some i.recipe

@[simp] theorem invoked?_command (s : String) : (command s).invoked? = none := rfl

@[simp] theorem invoked?_invocation (i : Invocation) :
    (invocation i).invoked? = some i.recipe := rfl

end Executable

end Provision
