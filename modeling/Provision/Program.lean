import Provision.CommandLine.Read
import Provision.Console

/-!
# The program

From a command line to an exit code and what is said on the two outputs.

> `Program.run`: a refused command line runs nothing.

Mirrors `main` and `dispatch`.
-/

namespace Provision

namespace CommandLine

variable {σ : Type}

/-- Carries out a command line. -/
def perform (c : CommandLine) (shell : Shell σ) (load : σ → String → Loaded) :
    Console σ CommandResult := do
  let loaded := load (← get).state c.config
  match c.action with
  | .validate => Console.validate loaded
  | .list => Console.display loaded Blueprint.listText
  | .dependencies => Console.display loaded Blueprint.dependencyTable
  | .details => Console.display loaded Blueprint.detailText
  | .status json => Console.status shell loaded json
  | .install yes => Console.install shell loaded yes
  | .completions _ => return .ok ()

/-- How important an entry of the log has to be. -/
def level (c : CommandLine) : Log.Level :=
  if c.quiet then .error
  else match c.verbose with
    | 0 => .warn
    | 1 => .info
    | 2 => .debug
    | _ => .trace

end CommandLine

/-! ## Outputs -/

/-- What is said to the user. -/
def Utterance.onOutput : Utterance → String
  | out text => text
  | _ => ""

/-- What is said about failures, with the entries that are shown of the log. -/
def Utterance.onError (shows : Log.Level → Bool) : Utterance → String
  | out _ => ""
  | err text => text
  | log e => if shows e.level then Text.line e.line else ""

/-- All that is said to the user. -/
def Terminal.output {σ : Type} (t : Terminal σ) : String :=
  String.join (t.said.map Utterance.onOutput)

/-- All that is said about failures. -/
def Terminal.error {σ : Type} (t : Terminal σ) (shows : Log.Level → Bool) : String :=
  String.join (t.said.map (Utterance.onError shows))

namespace Program

/-- The name and the version of the program. -/
def version : String := "systemconf 0.3.0"

/-- The end of the program after a refused command line. -/
def refused (r : Refusal) : Finished :=
  ⟨r.exitCode, if r = .version then Text.line version else "", ""⟩

/-- Runs the program in a world. -/
def run {σ : Type} (shell : Shell σ) (load : σ → String → Loaded) (env : Option String)
    (args : List String) (input : List UInt8) (state : σ) : Finished × σ :=
  match CommandLine.read env args with
  | .error r => (refused r, state)
  | .ok c =>
    let (result, t) := (c.perform shell load).run { state := state, input := input }
    let error := t.error c.level.shows
    match result with
    | .ok () => (⟨0, t.output, error⟩, t.state)
    | .error e => (⟨1, t.output, error ++ Text.line ("error: " ++ e.message)⟩, t.state)

end Program

end Provision
