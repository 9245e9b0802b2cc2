import Provision.Script.Session

/-!
# Signals

The names and numbers of signals, and what they do to a process that has not said what it does
with them.

> `named?_nameOf`: a signal is found by its own name.
-/

namespace Provision.Script.Signal

/-- The names of the signals, by number; the end of a shell counts as one of them. -/
def names : List String :=
  ["EXIT", "HUP", "INT", "QUIT", "ILL", "TRAP", "ABRT", "BUS", "FPE", "KILL", "USR1", "SEGV",
    "USR2", "PIPE", "ALRM", "TERM", "STKFLT", "CHLD", "CONT", "STOP", "TSTP", "TTIN", "TTOU",
    "URG", "XCPU", "XFSZ", "VTALRM", "PROF", "WINCH", "IO", "PWR", "SYS"]

/-- How many signals there are. -/
def count : Nat := 65

/-- What counts as a signal when a command fails. -/
def failure : Nat := 1000

/-- The name of a signal. -/
def nameOf (n : Nat) : String :=
  match names[n]? with
  | some s => s
  | none =>
    if n = failure then "ERR"
    else if n = 34 then "RTMIN"
    else if 34 < n && n < 50 then s!"RTMIN+{n - 34}"
    else if 49 < n && n < 64 then s!"RTMAX-{64 - n}"
    else if n = 64 then "RTMAX"
    else toString n

/-- The number of a name. -/
def named? (s : String) : Option Nat := names.findIdx? (· == s)

/-- The names of the signals are read back. -/
theorem named?_nameOf : ∀ n < 32, named? (nameOf n) = some n := by decide

/-- The number of a signal: a number, or a name in any letters. In the richer language `SIG`
may stand before it. -/
def number? (rich : Bool) (s : String) : Option Nat :=
  match Tool.nat? s with
  | some n => if n < count then some n else none
  | none =>
    let upper := String.ofList (s.toList.map Char.toUpper)
    let bare :=
      if rich && upper.startsWith "SIG" then String.ofList (upper.toList.drop 3) else upper
    if rich && bare == "ERR" then some failure else named? bare

/-- Whether a signal that nobody waits for does nothing. -/
def isIgnored (n : Nat) : Bool := n = 0 || n = 17 || n = 18 || n = 23 || n = 28

/-- The wording for a process that a signal has ended. -/
def wording (n : Nat) : String :=
  match n with
  | 1 => "Hangup"
  | 2 => "Interrupt"
  | 3 => "Quit"
  | 4 => "Illegal instruction"
  | 5 => "Trace/breakpoint trap"
  | 6 => "Aborted"
  | 7 => "Bus error"
  | 8 => "Floating point exception"
  | 9 => "Killed"
  | 10 => "User defined signal 1"
  | 11 => "Segmentation fault"
  | 12 => "User defined signal 2"
  | 13 => "Broken pipe"
  | 14 => "Alarm clock"
  | 15 => "Terminated"
  | n => s!"Signal {n}"

/-- The status of a process that a signal has ended, before it is told from other ones. -/
def ended (n : Nat) : Nat := 256 + n

/-- The signal that has ended a process, by its status. -/
def of? (status : Nat) : Option Nat := if 256 < status then some (status - 256) else none

/-- A status as a shell tells it. -/
def shown (status : Nat) : Nat :=
  match of? status with
  | some n => 128 + n
  | none => status

/-- What a signal ended shows its number, from 128 on. -/
theorem shown_ended (n : Nat) (h : 0 < n) : shown (ended n) = 128 + n := by
  simp [shown, of?, ended, h]

end Provision.Script.Signal
