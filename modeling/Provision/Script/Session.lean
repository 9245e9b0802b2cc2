import Provision.Tool
import Provision.Script.Cursor
import Provision.Registry

/-!
# Sessions

What a shell knows while it runs a script, besides what every process can reach: variables,
functions, options, the status of the last command. A step either goes on or leaves what
surrounds it.

> `text?_put`: a variable has the value that it has been given.
-/

namespace Provision.Script

/-- The languages of shells: the one that is common to all of them, and a richer one. -/
inductive Dialect
  | plain | bash
deriving DecidableEq

/-- What a variable holds: a text, texts by number, or texts by name. -/
inductive Value
  | text (s : String)
  | items (elements : List (Nat × String))
  | entries (elements : Registry String)

/-- A variable. One that has no value may still have been exported or fixed. -/
structure Variable where
  value : Option Value := none
  exported : Bool := false
  /-- Whether its value cannot change any more. -/
  fixed : Bool := false
  /-- Whether its values are calculated. -/
  numeric : Bool := false

/-- A command that is to be run later, with what it knows. -/
structure Deferred where
  body : Command
  bindings : Registry Variable
  parameters : List String
  descriptors : List (Nat × Nat)
  here : Place
  directory : String

/-- A command that nobody waited for: its number, its status, and when it ends. One that spends
time is run when somebody could see what it does. -/
structure Job where
  process : Nat
  status : Nat
  ends : Nat
  later : Option Deferred := none

/-- Why a step does not go on. -/
inductive Exit
  /-- The shell, or the subshell, ends. -/
  | leave
  /-- A command has failed for a reason that ends the shell, too, if the command is special. -/
  | failed
  /-- Loops end, as many as the number says. -/
  | stop (loops : Nat)
  /-- A loop starts over, after as many inner ones have ended. -/
  | again (loops : Nat)
  /-- A function ends. -/
  | returned
  /-- A mistake in an expansion ends the present line of a script. -/
  | abandoned
  /-- The process ends by a signal. -/
  | killed (signal : Nat)
deriving DecidableEq, Repr

/-- The state of a shell. -/
structure Session extends Process where
  dialect : Dialect := .plain
  /-- The command that complaints name. -/
  command : Option String := none
  /-- The file that is being read, which complaints name instead of the shell. -/
  source : Option String := none
  line : Nat := 1
  status : Nat := 0
  /-- The status of the last command whose output was put into a word. -/
  outputStatus : Nat := 0
  /-- The statuses of the commands of the last pipeline. -/
  pipe : List Nat := []
  bindings : Registry Variable := {}
  /-- The positional parameters. -/
  parameters : List String := []
  functions : Registry Command := {}
  aliases : Registry String := {}
  /-- The names of the programs that have been found. -/
  found : List String := []
  /-- The names of the options that are on. -/
  options : List String := []
  /-- Whether the present command is tested, so that it may fail. -/
  tested : Bool := false
  /-- How many loops surround the present command. -/
  loops : Nat := 0
  /-- How many sourced files surround the present command. -/
  sourced : Nat := 0
  /-- What the variables of the functions that are being run were before. -/
  frames : List (List (String × Option Variable)) := []
  /-- The names of the functions that are being run. -/
  calls : List String := []
  /-- What is run when a signal comes, or at the end, which counts as signal 0. -/
  traps : List (Nat × String) := []
  /-- Signals that have come and whose traps are still to be run. -/
  pending : List Nat := []
  /-- The status before the trap that is being run. -/
  interrupted : Option Nat := none
  jobs : List Job := []
  /-- The last command that nobody waited for. -/
  last : Option Nat := none
  /-- The parameter whose options are being read, and how far they have been read. -/
  optionWord : Nat := 1
  letter : Nat := 0
  /-- The number of the process of the shell. -/
  self : Nat := 4242
  /-- How many subshells surround the present command. -/
  depth : Nat := 0
  /-- How many scripts inside scripts surround the present command. -/
  level : Nat := 0
  /-- The directory as the user came to it. -/
  directory : String := ""
  /-- The directories that can be gone back to. -/
  stack : List String := []
  /-- Whether the script was given as an argument. -/
  direct : Bool := true

/-- A step of a shell. -/
abbrev Step := ExceptT Exit (StateM Session)

namespace Session

/-! ## Options -/

/-- Whether an option is on. -/
def has (s : Session) (option : String) : Bool := s.options.contains option

/-- Turns an option on or off. -/
def switch (s : Session) (option : String) (on : Bool) : Session :=
  let others := s.options.filter (· != option)
  { s with options := if on then option :: others else others }

/-- Whether the language is the richer one. -/
def isRich (s : Session) : Bool := s.dialect == .bash

/-! ## Variables -/

/-- Makes a variable what is said, or takes it away. -/
def setVariable (s : Session) (name : String) (v : Option Variable) : Session :=
  { s with
    bindings := match v with
      | some v => s.bindings.insert name v
      | none => s.bindings.erase name }

/-- Where a name stands in the table that texts by name are kept in: octet by octet, the place
is multiplied by a prime and changed in the bits of the octet. -/
def placeOf (name : String) : Nat :=
  let step (h : UInt32) (b : UInt8) : UInt32 := (h * 16777619) ^^^ b.toUInt32
  ((Text.Octets.toBytes name).foldl step 2166136261).toNat % 1024

/-- Texts by name in the order of their places; of two names with the same one, the later name
comes first. -/
def listed (es : Registry String) : List (String × String) :=
  es.entries.reverse.mergeSort fun a b => placeOf a.1 ≤ placeOf b.1

/-- The text of a value: the first one if there are many. -/
def textOf : Value → Option String
  | .text t => some t
  | .items es => (es.find? fun e => e.1 == 0).map Prod.snd
  | .entries es => es.get? "0"

/-- A value with another text. -/
def withText (text : String) : Option Value → Value
  | some (.items es) => .items ((0, text) :: es.filter fun e => e.1 != 0)
  | some (.entries es) => .entries (es.insert "0" text)
  | _ => .text text

/-- The text of a variable. -/
def text? (s : Session) (name : String) : Option String :=
  if name = "LINENO" && s.isRich then some (toString s.line)
  else ((s.bindings.get? name).bind Variable.value).bind textOf

/-- Gives a variable a text. -/
def put (s : Session) (name text : String) : Session :=
  let v := (s.bindings.get? name).getD {}
  let s := if name = "PATH" then { s with found := [] } else s
  s.setVariable name (some { v with
    value := some (withText text v.value)
    exported := v.exported || s.has "allexport" })

/-- A variable shows the text that has been put into it. -/
theorem textOf_withText (text : String) (v : Option Value) :
    textOf (withText text v) = some text := by
  unfold withText
  split
  · simp [textOf]
  · simp [textOf, Registry.get?_insert]
  · rfl

/-- A variable that has been set shows its text; only the line number is computed. -/
theorem text?_put (s : Session) (name text : String) (h : name ≠ "LINENO") :
    (s.put name text).text? name = some text := by
  unfold put
  split <;> simp [text?, h, setVariable, Registry.get?_insert, textOf_withText]

/-- The characters that separate fields. -/
def separators (s : Session) : List Char := ((s.text? "IFS").getD " \t\n").toList

/-- What is put between words that become one. -/
def joint (s : Session) : String :=
  match s.text? "IFS" with
  | none => " "
  | some t => String.ofList (t.toList.take 1)

/-- In which of the lists that a shell keeps a variable is found. -/
def bucket (name : String) : Nat :=
  (name.toList.foldl (fun n c => n + c.toNat) ((name.toList.headD '\x00').toNat * 16)) % 39

/-- The variables that other programs know. -/
def exported (s : Session) : List (String × String) :=
  let known := s.bindings.entries.filterMap fun e =>
    if e.2.exported then (e.2.value.bind textOf).map (e.1, ·) else none
  known.mergeSort fun a b => bucket a.1 ≤ bucket b.1

/-! ## Messages -/

/-- What stands before a complaint. -/
def label (s : Session) : String :=
  match s.dialect with
  | .plain =>
    let command := s.command.elim "" fun c => s!"{c}: "
    s!"{s.name}: {s.line}: {command}"
  | .bash =>
    let name := match s.source with
      | some file => file
      | none => if s.direct && !s.frames.isEmpty then "environment" else s.name
    s!"{name}: line {s.line}: "

/-- Writes to the standard error. -/
def warn (s : Session) (text : String) : Session :=
  { s with toProcess := s.toProcess.write 2 text }

/-- Writes a complaint of the shell itself. -/
def complain (s : Session) (text : String) : Session := s.warn (s.label ++ text ++ "\n")

/-- Writes the complaint that goes with the language. -/
def complainEither (s : Session) (plain rich : String) : Session :=
  s.complain (if s.isRich then rich else plain)

/-! ## Parts -/

/-- The session after a part of the script that had its own variables and settings. -/
def rejoin (s part : Session) : Session :=
  { s with
    toProcess := s.toProcess.after part.toProcess
    line := if s.isRich then s.line else part.line }

end Session

/-! ## Steps -/

namespace Step

/-- Sets the status. -/
def setStatus (n : Nat) : Step Unit := modify fun s => { s with status := n }

/-- Complains. -/
def complain (plain rich : String) : Step Unit := modify fun s => s.complainEither plain rich

/-- Fails with a complaint. -/
def failWith {α : Type} (status : Nat) (plain rich : String) : Step α := do
  complain plain rich
  let s ← get
  setStatus (if s.isRich then status else 2)
  throw .failed

/-- Refuses to change a variable whose value is fixed. -/
def refuseChange {α : Type} (name : String) : Step α :=
  failWith 1 s!"{name}: is read only" s!"{name}: readonly variable"

/-- Gives a variable a text, unless its value is fixed. -/
def assign (name text : String) : Step Unit := do
  let s ← get
  if (s.bindings.get? name).any Variable.fixed then refuseChange name
  set (s.put name text)

/-- Does the work of a tool. -/
def work (t : Tool Nat) : Step Nat := do
  let s ← get
  let (n, p) := (Tool.perform t).run s.toProcess
  set { s with toProcess := p }
  return n

end Step

end Provision.Script
