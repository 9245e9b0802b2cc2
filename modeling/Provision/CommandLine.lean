/-!
# Command lines

What the user can ask of the program, and why a command line is refused. A request for help
or for the version counts as a refusal too, for nothing else is done then.

Mirrors the declarations of `Cli` and of its commands.
-/

namespace Provision

/-- The shells for which completions can be made. -/
inductive CompletionShell
  | bash | elvish | fish | powershell | zsh
deriving DecidableEq, Repr

namespace CompletionShell

/-- The name of a shell. -/
def name : CompletionShell → String
  | bash => "bash"
  | elvish => "elvish"
  | fish => "fish"
  | powershell => "powershell"
  | zsh => "zsh"

/-- The shell of a name. -/
def ofName? (s : String) : Option CompletionShell :=
  [bash, elvish, fish, powershell, zsh].find? fun c => c.name == s

/-- The names of the shells are read back. -/
theorem ofName?_name (c : CompletionShell) : ofName? c.name = some c := by cases c <;> rfl

end CompletionShell

/-- A command of the program. -/
inductive Action
  | validate | list | dependencies | details
  | status (json : Bool)
  | install (yes : Bool)
  | completions (shell : CompletionShell)
deriving DecidableEq, Repr

/-- What a command line asks for. -/
structure CommandLine where
  /-- The path of the configuration. -/
  config : String
  /-- How talkative the log is. -/
  verbose : Nat
  quiet : Bool
  action : Action
deriving DecidableEq, Repr

/-- Why a command line is refused. -/
inductive Refusal
  | help | version
  /-- There is nothing on the command line at all. -/
  | nothingGiven
  | missingSubcommand | invalidSubcommand
  | unknownArgument | missingArgument
  | argumentConflict
  | invalidValue | tooManyValues
deriving DecidableEq, Repr

/-- The exit code of a refusal: help and the version have been asked for. -/
def Refusal.exitCode : Refusal → Nat
  | help | version => 0
  | _ => 2

end Provision
