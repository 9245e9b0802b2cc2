import Provision.Script.Start

/-!
# Sandboxes

A shell whose world is a tree of files. Any program that the tree holds can be called with `-c`
and a command: a shell runs it, other programs make of it what they can.

> `sandbox_nul`: neither a program nor a command with a `NUL` is ever started.
-/

namespace Provision

namespace Sandbox

/-- The environment of commands. -/
def environment : List (String × String) :=
  [("PATH", "/usr/local/sbin:/usr/local/bin:/usr/sbin:/usr/bin:/sbin:/bin"), ("HOME", "/root")]

/-- What has been written to a stream. -/
def written (p : Process) (stream : Nat) : String :=
  match p.streams[stream]? with
  | some (.buffer text) => Text.Octets.toText text
  | _ => ""

/-- Starts a program with arguments and waits for its end. -/
def start (files : Files) (words : List String) : Except OsError (Finished × Files) := do
  let p := Process.start files environment
  let path ← Script.findProgram p (words.headD "")
  let (result, p) := (((Script.runner Script.maxDepth).execute path words).run).run p
  let status ← (match result with
    | .ok r => r
    | .error n => .ok n)
  let code : Int := match Script.Signal.of? status with
    | some _ => -1
    | none => status
  return (⟨code, written p 1, written p 2⟩, p.files)

end Sandbox

/-- The shell of a tree of files. -/
def sandbox : Shell Files := fun name command files =>
  if name.contains '\x00' || command.contains '\x00' then (.error ⟨name, .nul⟩, files)
  else
    match Sandbox.start files [Text.Octets.ofText name, "-c", Text.Octets.ofText command] with
    | .error e => (.error ⟨name, .os e⟩, files)
    | .ok (finished, files) => (.ok finished, files)

/-- A command with a `NUL` in it is never started. -/
theorem sandbox_nul {name command : String}
    (h : name.contains '\x00' = true ∨ command.contains '\x00' = true) (files : Files) :
    sandbox name command files = (.error ⟨name, .nul⟩, files) := by
  unfold sandbox
  rw [if_pos]
  rcases h with h | h <;> simp [h]

end Provision
