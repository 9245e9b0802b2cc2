import Provision.Script.Builtin

/-!
# Surroundings of commands

What stands around the commands of a script: subshells, whose variables and settings concern
nobody else, the ends of shells, where traps are run, and conditions, which may fail. Running a
command takes a runner, which runs the parts of it.

> `branch_traps`: a subshell has no traps but the empty ones.
-/

namespace Provision.Script

/-- What runs the parts of a command. Each part of a part is run by a smaller runner. -/
structure Runner where
  command : Command → Step Unit
  /-- Expands pieces of a word. -/
  pieces : Setting → Word → Step (List Atom)
  /-- Runs a text as a script of its own. -/
  text : String → Step Unit
  /-- Starts the program of a file, under the name that its words begin with. -/
  execute : String → Tool.Launch
  /-- How many turns a loop may have. -/
  limit : Nat

/-- The state in which a subshell begins. -/
def Session.branch (s : Session) : Session :=
  { s with
    toProcess := s.toProcess.child
    depth := s.depth + 1
    traps := s.traps.filter fun e => e.2.isEmpty
    pending := []
    jobs := [] }

/-- A branch inherits no trap, only that signals are ignored. -/
theorem branch_traps (s : Session) : ∀ e ∈ s.branch.traps, e.2 = "" := by
  intro e h
  simpa [Session.branch, String.isEmpty_iff] using (List.mem_filter.1 h).2

namespace Step

/-! ## Putting back -/

/-- Runs a step and changes the state after it, however it ends. -/
def putBack {α : Type} (back : Session → Session) (step : Step α) : Step α := do
  let a ← tryCatch step fun e => do
    modify back
    throw e
  modify back
  return a

/-- Runs a step with descriptors that are put back after it. -/
def withDescriptors {α : Type} (step : Step α) : Step α := do
  let s ← get
  putBack (fun t => { t with descriptors := s.descriptors }) step

/-- Runs a step that may fail. -/
def asTest {α : Type} (step : Step α) : Step α := do
  let s ← get
  set { s with tested := true }
  putBack (fun t => { t with tested := s.tested }) step

/-- Runs a step up to its end or to the step that gives back. -/
def untilReturned (step : Step Unit) : Step Unit :=
  tryCatch step fun
    | .returned => pure ()
    | e => throw e

/-- Runs a turn of a loop and tells whether the loop goes on, as the turn does itself unless it
is left. -/
def iteration (turn : Step Bool) : Step Bool := do
  let s ← get
  set { s with loops := s.loops + 1 }
  tryCatch (putBack (fun t => { t with loops := s.loops }) turn) fun
    | .stop 0 => return false
    | .stop (n + 1) => throw (.stop n)
    | .again 0 => return true
    | .again (n + 1) => throw (.again n)
    | e => throw e

/-! ## Signals and strictness -/

/-- Takes in the signals that have been sent to this process. -/
def arrive : Step Unit := do
  let s ← get
  let mine := s.sent.filter fun e => e.1 == s.number
  if mine.isEmpty then return
  set { s with sent := s.sent.filter fun e => e.1 != s.number }
  for e in mine do receive e.2

/-- Runs the traps of the signals that have come. -/
def runTraps (r : Runner) : Step Unit := do
  arrive
  let s ← get
  if s.pending.isEmpty then return
  set { s with pending := [] }
  for n in s.pending do
    let t ← get
    match t.traps.find? fun e => e.1 == n with
    | some (_, action) =>
      if !action.isEmpty then
        set { t with interrupted := some s.status, tested := false }
        putBack (fun u => { u with interrupted := t.interrupted, tested := t.tested })
          (r.text action)
        setStatus s.status
    | none => pure ()

/-- Runs what is to be run after a command: traps, and the end of a strict shell if the command
has failed. -/
def settle (r : Runner) : Step Unit := do
  runTraps r
  let s ← get
  if s.status != 0 && !s.tested then
    match s.traps.find? fun e => e.1 == Signal.failure with
    | some (_, action) =>
      if s.calls.isEmpty || s.has "errtrace" then
        set { s with tested := true }
        putBack (fun t => { t with tested := s.tested }) (r.text action)
        setStatus s.status
    | none => pure ()
    if s.has "errexit" then throw .leave

/-! ## Ends of shells -/

/-- Runs a script, and what is to be run at its end, and tells the status of the shell. -/
def untilEnd (r : Runner) (script : Step Unit) : Step Nat := do
  let caught (step : Step Unit) : Step (Option Nat) :=
    tryCatch (do step; return none) fun
      | .killed n => return some n
      | _ => return none
  let killed ← caught script
  let s ← get
  let ended (killed : Option Nat) : Step Nat := do
    let s ← get
    return match killed with
      | some n => Signal.ended n
      | none => s.status % 256
  match s.traps.find? fun e => e.1 == 0 with
  | some (_, action) =>
    if action.isEmpty || killed == some 9 || (killed.isSome && !s.isRich) then ended killed
    else
      set { s with
        traps := s.traps.filter fun e => e.1 != 0
        interrupted := some s.status, tested := false, loops := 0 }
      let again ← caught do
        r.text action
        setStatus s.status
      ended (killed.orElse fun _ => again)
  | none => ended killed

/-- The status after a command that may have been ended by a signal, which is told. -/
def conclude (status : Nat) : Step Nat := do
  match Signal.of? status with
  | some n =>
    if n != 2 && n != 13 then
      let s ← get
      let wording := Signal.wording n
      if !s.isRich || n == 15 then set (s.warn (wording ++ "\n"))
      else
        let process := s.next - 1
        let padded := Tool.padRight 24 wording
        complain "" s!"{process} {padded}"
  | none => pure ()
  return Signal.shown status

/-- Runs a step in a subshell that begins with a change, and tells its status. -/
def isolated (r : Runner) (change : Session → Session) (step : Step Unit) : Step Nat := do
  let s ← get
  set (change s.branch)
  let status ← untilEnd r step
  modify s.rejoin
  return status

/-- Runs a step in a subshell and takes what it prints. -/
def captured (r : Runner) (step : Step Unit) : Step String := do
  let s ← get
  let (p, i) := s.toProcess.add (.buffer "")
  set { s with toProcess := p }
  let change (t : Session) : Session :=
    let t :=
      { t with toProcess := t.toProcess.redirect 1 (some i), tested := false, level := t.level + 1 }
    if t.isRich && !t.has "inherit_errexit" then t.switch "errexit" false else t
  let status ← isolated r change step
  let status ← (if s.isRich then pure (Signal.shown status) else conclude status)
  let t ← get
  set { t with outputStatus := status, status := if t.isRich then status else t.status }
  return match t.streams[i]? with
    | some (.buffer text) => text
    | _ => ""

/-- Runs a step in a subshell and tells under which path what it prints can be read. The status
stays as it is. -/
def channelled (r : Runner) (step : Step Unit) : Step String := do
  let s ← get
  let (p, i) := s.toProcess.add (.buffer "")
  set { s with toProcess := p }
  let change (t : Session) : Session :=
    { t with toProcess := t.toProcess.redirect 1 (some i), tested := false, level := t.level + 1 }
  let _ ← isolated r change step
  let t ← get
  let isFree (n : Nat) : Bool := (t.toProcess.target? n).isNone
  let n := (((List.range 64).reverse).find? isFree).getD 63
  set { t with toProcess := t.toProcess.redirect n (some i) }
  return s!"/dev/fd/{n}"

/-! ## Commands for later -/

/-- Runs a command that has been put off. -/
def runDeferred (r : Runner) (j : Job) (d : Deferred) : Step Unit := do
  let s ← get
  let before := s.waited
  let change (t : Session) : Session :=
    { t with
      bindings := d.bindings, parameters := d.parameters, descriptors := d.descriptors
      here := d.here, directory := d.directory }
  let status ← isolated r change (r.command d.body)
  let finished (k : Job) : Job :=
    if k.process == j.process then { k with status := status, later := none } else k
  modify fun t => { t with waited := before, jobs := t.jobs.map finished }

/-- Runs the commands that have been put off and end before a time, the first ones first. -/
def runDue (r : Runner) (time : Option Nat) : Step Unit := do
  let s ← get
  let ended := s.jobs.filter fun j => time.all fun t => j.ends ≤ t
  let due := ended.mergeSort fun a b => a.ends ≤ b.ends
  for j in due do
    match j.later with
    | some d => runDeferred r j d
    | none => pure ()

end Step

end Provision.Script
