import Provision.Load
import Provision.Outcome.Json
import Provision.Plan
import Provision.StatusTable

/-!
# The console

What is said to the user while commands of the program are carried out. An installation runs
nothing but checks before the user has agreed to it.

> `Answer.ofInput`: the first line of the input is an answer if it is a text.

Mirrors `cmd_validate` to `cmd_install` and `confirm`. The terminal is a state: what has been
said, the input that is left, and whether a prompt can be written at all; the two outputs keep
their common order.
-/

namespace Provision

/-- Something that is said: to the user, to the user about a failure, or to the log. -/
inductive Utterance
  | out (text : String)
  | err (text : String)
  | log (entry : Log.Entry)

/-- The state of the world, what the user types, and what has happened and been said. -/
structure Terminal (σ : Type) where
  state : σ
  input : List UInt8 := []
  events : List Event := []
  said : List Utterance := []
  /-- Why nothing can be put to the user that has no end of its line, if so. -/
  mute : Option String := none

/-- Steps that talk to the user. -/
abbrev Console (σ : Type) := StateM (Terminal σ)

namespace Console

variable {σ : Type}

/-- Says something. -/
def say (u : Utterance) : Console σ Unit := modify fun t => { t with said := t.said ++ [u] }

/-- Says something to the user. -/
def put (text : String) : Console σ Unit := say (.out text)

/-- Runs commands and tells the log about them. -/
def perform {α : Type} (r : Run σ α) : Console σ α := fun t =>
  let (a, w) := r ⟨t.state, []⟩
  (a, { t with
    state := w.state
    events := t.events ++ w.events
    said := t.said ++ (w.events.flatMap Event.journal).map .log })

end Console

/-! ## Answers -/

/-- The answer to a question. -/
inductive Answer
  | yes | no
  /-- What was typed is not a text. -/
  | unreadable
deriving DecidableEq, Repr

/-- The bytes up to the first line break. -/
def firstLine (input : List UInt8) : List UInt8 := input.takeWhile (· != 10)

/-- The answer that an input begins with. -/
def Answer.ofInput (input : List UInt8) : Answer :=
  match Text.Utf8.strict? (firstLine input) with
  | none => unreadable
  | some s =>
    let word := (Text.trim s).map Char.toLower
    if word = "y" ∨ word = "yes" then yes else no

/-! ## Commands -/

/-- Why a command of the program fails. -/
inductive CommandError
  | load (e : LoadError)
  | invalid (count : Nat)
  | unfinished (failed skipped : Nat)

/-- The wording of the reason. -/
def CommandError.message : CommandError → String
  | load e => e.message
  | invalid count => s!"{count} validation error(s)"
  | unfinished failed skipped => s!"{failed} target(s) failed, {skipped} skipped"

/-- What comes of a command of the program. -/
abbrev CommandResult := Except CommandError Unit

namespace Console

variable {σ : Type}

/-- Goes on with a blueprint that has been loaded. -/
def withBlueprint (l : Loaded) (f : Blueprint → Console σ CommandResult) :
    Console σ CommandResult := do
  l.journal.forM fun e => say (.log e)
  match l.result with
  | .ok b => f b
  | .error e => return .error (.load e)

/-- Validates a configuration. -/
def validate (l : Loaded) : Console σ CommandResult := do
  match l.result with
  | .error (.invalid vs) =>
    l.journal.forM fun e => say (.log e)
    vs.forM fun v => say (.err (Text.line ("  ERROR: " ++ v.message)))
    return .error (.invalid vs.length)
  | _ => withBlueprint l fun b => do
    put (Text.line
      s!"OK: {b.config.name} ({b.procedures.size} targets, {b.recipes.size} recipes)")
    return .ok ()

/-- Shows a text about a blueprint. -/
def display (l : Loaded) (f : Blueprint → String) : Console σ CommandResult :=
  withBlueprint l fun b => do
    put (f b)
    return .ok ()

/-- Checks every target and shows the result. -/
def status (shell : Shell σ) (l : Loaded) (json : Bool) : Console σ CommandResult :=
  withBlueprint l fun b => do
    let r ← perform (b.status shell)
    put (if json then Text.line r.toJson.pretty else (StatusTable.ofReport b r).render)
    return .ok ()

/-- Asks whether to go on. A question that cannot be put counts as declined. -/
def confirm : Console σ Bool := do
  let t ← get
  match t.mute with
  | some reason =>
    say (.log ⟨.warn, .cli, s!"cannot write prompt: {reason}"⟩)
    return false
  | none =>
    put "proceed? [y/N]: "
    match Answer.ofInput t.input with
    | .yes => return true
    | .no => return false
    | .unreadable =>
      say (.log ⟨.warn, .cli, s!"cannot read answer: {ReadError.encoding.message}"⟩)
      return false

/-- Checks every target and installs the missing ones, if the user agrees. -/
def install (shell : Shell σ) (l : Loaded) (yes : Bool) : Console σ CommandResult :=
  withBlueprint l fun b => do
    put (Text.line "Checking which targets are already installed...")
    let report ← perform (b.status shell)
    put (b.planText report)
    if report.missing.isEmpty then return .ok ()
    let agreed ← (if yes then pure true else confirm)
    if !agreed then
      put (Text.line "Exiting")
      return .ok ()
    let result ← perform (b.installMissing shell report)
    put result.text
    if result.success then return .ok ()
    else return .error (.unfinished result.failed.length result.skipped.length)

end Console

end Provision
