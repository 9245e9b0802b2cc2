import Provision.Blueprint
import Provision.Outcome

/-!
# Commands of targets

The commands that check and install a target, after all its recipes have been expanded.

Mirrors `record`, `check_command`, `install_commands` and `describe_install`. An error of a
recipe stays data until it becomes an outcome.
-/

namespace Provision

/-- Why a target has no commands. -/
inductive ResolveError
  | unknownTarget (name : String)
  | noCheck (target : String)
  | recipe (e : RecipeError)
deriving DecidableEq, Repr

/-- The wording of the reason. -/
def ResolveError.message : ResolveError → String
  | unknownTarget name => s!"unknown target '{name}'"
  | noCheck target => s!"target '{target}' has no check procedure"
  | recipe e => e.message

/-- The reason as an outcome. -/
def ResolveError.outcome (e : ResolveError) : Outcome := ⟨.error, e.message⟩

namespace Blueprint

/-- The procedure of a target. -/
def procedureOf (b : Blueprint) (target : String) : Except ResolveError Procedure :=
  match b.procedures.get? target with
  | some p => .ok p
  | none => .error (.unknownTarget target)

/-- The command that checks a target. -/
def checkCommand (b : Blueprint) (target : String) : Except ResolveError String := do
  let p ← b.procedureOf target
  match p.checkStep? with
  | some (.command c) => return c
  | some (.invocation i) => (i.checkCommand b.recipes).mapError .recipe
  | none => throw (.noCheck target)

/-- The commands of one step of an installation. -/
def stepCommands (b : Blueprint) : Executable → Except ResolveError (List String)
  | .command c => .ok [c]
  | .invocation i => (i.setupCommands b.recipes).mapError .recipe

/-- The commands that install a target, in order. -/
def installCommands (b : Blueprint) (target : String) : Except ResolveError (List String) := do
  let p ← b.procedureOf target
  return (← p.installSteps.mapM b.stepCommands).flatten

/-- An installation in one line: its first command, and whether there are more. -/
def describeInstall (b : Blueprint) (target : String) : String :=
  match b.installCommands target with
  | .ok [] => ""
  | .ok [only] => only
  | .ok (first :: _) => first ++ " ..."
  | .error e => e.message

end Blueprint

end Provision
