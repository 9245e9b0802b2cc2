import Provision.Log

/-!
# Shells

A shell runs commands over a state of the world that it alone knows. Nothing is assumed
about it: the same command may end differently each time.

Mirrors `exec`, `exec_local` and `ExecOutput`. The program is started in a world that the
shell may change; a signal, which leaves no exit code, counts as `-1` as it does there.
-/

namespace Provision

/-- Why the system refuses an operation. -/
inductive OsError
  | notFound | noDevice | badFormat | badDescriptor | permissionDenied | exists | notDirectory
  | isDirectory | invalid | noSpace | nameTooLong | notEmpty | tooManyLinks
deriving DecidableEq, Repr

namespace OsError

/-- The wording of a reason, without its number. -/
def text : OsError → String
  | notFound => "No such file or directory"
  | noDevice => "No such device or address"
  | badFormat => "Exec format error"
  | badDescriptor => "Bad file descriptor"
  | permissionDenied => "Permission denied"
  | .exists => "File exists"
  | notDirectory => "Not a directory"
  | isDirectory => "Is a directory"
  | invalid => "Invalid argument"
  | noSpace => "No space left on device"
  | nameTooLong => "File name too long"
  | notEmpty => "Directory not empty"
  | tooManyLinks => "Too many levels of symbolic links"

/-- The number of a reason. -/
def number : OsError → Nat
  | notFound => 2
  | noDevice => 6
  | badFormat => 8
  | badDescriptor => 9
  | permissionDenied => 13
  | .exists => 17
  | notDirectory => 20
  | isDirectory => 21
  | invalid => 22
  | noSpace => 28
  | nameTooLong => 36
  | notEmpty => 39
  | tooManyLinks => 40

/-- The wording of a reason with its number. -/
def message (e : OsError) : String := s!"{e.text} (os error {e.number})"

end OsError

/-- A command that has ended. A signal counts as the exit code -1. -/
structure Finished where
  exitCode : Int
  stdout : String
  stderr : String
deriving DecidableEq, Repr

/-- Whether a command ended well. -/
def Finished.success (f : Finished) : Bool := f.exitCode == 0

/-- Why a program could not be started. -/
inductive SpawnReason
  | os (e : OsError)
  /-- The program or the command contains a `NUL`. -/
  | nul
  /-- Any other reason, in its own words. -/
  | other (text : String)
deriving DecidableEq, Repr

/-- A program that could not be started. -/
structure SpawnError where
  program : String
  reason : SpawnReason
deriving DecidableEq, Repr

/-- The wording of the failure. -/
def SpawnError.message (e : SpawnError) : String :=
  let reason := match e.reason with
    | .os o => o.message
    | .nul => "nul byte found in provided data"
    | .other text => text
  s!"failed to spawn {e.program}: {reason}"

/-- The result of running a command. -/
abbrev RunResult := Except SpawnError Finished

/-- A shell: what the program does when called with `-c` and a command. -/
abbrev Shell (σ : Type) := String → String → σ → RunResult × σ

/-! ## Runs -/

/-- What happens while targets are checked and installed. -/
inductive Event
  | ran (program command : String) (result : RunResult)
  | installing (target : String)
  | installed (target : String)
  | failed (target detail : String)
  | skipped (target : String) (blockers : List String)

/-- The state of the world, and what has happened so far. -/
structure World (σ : Type) where
  state : σ
  events : List Event := []

/-- Steps that run commands. -/
abbrev Run (σ : Type) := StateM (World σ)

namespace Run

variable {σ : Type}

/-- Says that something happened. -/
def note (e : Event) : Run σ Unit := modify fun w => { w with events := w.events ++ [e] }

/-- Runs a command. -/
def exec (shell : Shell σ) (program command : String) : Run σ RunResult := fun w =>
  let (result, state) := shell program command w.state
  (result, { state := state, events := w.events ++ [.ran program command result] })

end Run

end Provision
