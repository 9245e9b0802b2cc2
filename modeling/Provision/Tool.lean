import Provision.Process

/-!
# Tools

The programs of the system are steps of a process: they read and write, change files, and end
with a status. What they have in common is how they read their options, and how they word
what is wrong.
-/

namespace Provision

/-- The work of a program: it may end with a status before it is done. -/
abbrev Tool := ExceptT Nat (StateM Process)

namespace Tool

/-! ## Messages -/

/-- Writes to the standard error. -/
def warn (text : String) : Tool Unit := modify fun p => p.write 2 text

/-- Says that something is wrong. -/
def complain (text : String) : Tool Unit := modify fun p => p.write 2 s!"{p.name}: {text}\n"

/-- Ends with a message. -/
def fail {α : Type} (status : Nat) (text : String) : Tool α := do
  complain text
  throw status

/-- Ends because of the arguments, with a hint where help can be found. How the program is
called may be said instead of that, or, in one line, before it. -/
def refuse {α : Type} (status : Nat) (text : String) (usage : String := "") : Tool α := do
  complain text
  warn usage
  if (usage.splitOn "\n").length ≤ 2 then
    modify fun p => p.write 2 s!"Try '{p.name} --help' for more information.\n"
  throw status

/-- The status of a program that cannot write. -/
def unwritten (name : String) : Nat :=
  let base := ((name.splitOn "/").getLast?).getD ""
  if ["ls", "sort", "grep", "egrep", "fgrep", "diff", "cmp"].contains base then 2 else 1

/-- Prints a text. -/
def put (text : String) : Tool Unit := do
  if text.isEmpty then return
  let p ← get
  match p.writeError? 1 with
  | some e => fail (unwritten p.name) s!"write error: {e.text}"
  | none => modify fun p => p.write 1 text

/-- Prints a line. -/
def putLine (text : String) : Tool Unit := put (text ++ "\n")

/-- A text between single quotes, for messages. -/
def quoted (s : String) : String := s!"'{s}'"

/-! ## Options -/

/-- Whether an option has a value. -/
inductive Need
  | never | always | perhaps
deriving DecidableEq

/-- An option: its letter, its long name, and whether it has a value. -/
structure Switch where
  letter : Char
  name : String := ""
  need : Need := .never

/-- An option that has been given, with its value. -/
abbrev Given := List (Char × String)

namespace Given

/-- Whether an option has been given. -/
def has (g : Given) (letter : Char) : Bool := g.any fun e => e.1 == letter

/-- The value of an option, the last one that has been given. -/
def value? (g : Given) (letter : Char) : Option String :=
  (g.reverse.find? fun e => e.1 == letter).map Prod.snd

/-- Which of some options has been given last. -/
def last? (g : Given) (letters : List Char) : Option Char :=
  (g.reverse.find? fun e => letters.contains e.1).map Prod.fst

end Given

/-- The options in a word of letters; the value of the last one may be in the next word. -/
def letters (status : Nat) (usage : String) (switches : List Switch) : List Char → List String →
    Tool (Given × List String)
  | [], rest => return ([], rest)
  | c :: cs, rest => do
    match switches.find? fun s => s.letter == c with
    | none => refuse status s!"invalid option -- '{c}'" usage
    | some s => match s.need with
      | .never =>
        let (more, rest) ← letters status usage switches cs rest
        return ((c, "") :: more, rest)
      | .perhaps => return ([(c, String.ofList cs)], rest)
      | .always =>
        if !cs.isEmpty then return ([(c, String.ofList cs)], rest)
        match rest with
        | v :: rest => return ([(c, v)], rest)
        | [] => refuse status s!"option requires an argument -- '{c}'" usage

/-- A long option without its dashes; its value may be in the next word. -/
def longName (status : Nat) (usage : String) (switches : List Switch) (word : String)
    (rest : List String) : Tool (Given × List String) := do
  let cs := word.toList
  let name := String.ofList (cs.takeWhile (· != '='))
  let value : Option String :=
    if name.length < cs.length then some (String.ofList (cs.drop (name.length + 1))) else none
  let exact := switches.filter fun s => s.name == name
  let found := if exact.isEmpty then
      switches.filter fun s => !s.name.isEmpty && s.name.startsWith name
    else exact
  match found with
  | [] =>
    if name == "help" || name == "version" then throw 0
    refuse status s!"unrecognized option '--{word}'" usage
  | [s] => match s.need, value, rest with
    | .never, none, rest => return ([(s.letter, "")], rest)
    | .never, some _, _ => refuse status s!"option '--{s.name}' doesn't allow an argument" usage
    | .perhaps, v, rest => return ([(s.letter, v.getD "")], rest)
    | .always, some v, rest => return ([(s.letter, v)], rest)
    | .always, none, v :: rest => return ([(s.letter, v)], rest)
    | .always, none, [] => refuse status s!"option '--{s.name}' requires an argument" usage
  | several =>
    let names := " ".intercalate (several.map fun s => s!"'--{s.name}'")
    refuse status s!"option '--{word}' is ambiguous; possibilities: {names}" usage

/-- Options and operands. Unless operands end the options, both may be mixed. -/
def options (switches : List Switch) (args : List String) (status : Nat := 1)
    (mixed : Bool := true) (usage : String := "") : Tool (Given × List String) :=
  go (args.length + 1) args
where
  /-- Reads arguments one after another. -/
  go : Nat → List String → Tool (Given × List String)
  | 0, rest => return ([], rest)
  | _, [] => return ([], [])
  | fuel + 1, a :: rest => do
    if a == "--" then return ([], rest)
    else if a.startsWith "--" then
      let (given, rest) ← longName status usage switches (String.ofList (a.toList.drop 2)) rest
      let (more, operands) ← go fuel rest
      return (given ++ more, operands)
    else if a.startsWith "-" && a != "-" then
      let (given, rest) ← letters status usage switches (a.toList.drop 1) rest
      let (more, operands) ← go fuel rest
      return (given ++ more, operands)
    else if !mixed then return ([], a :: rest)
    else
      let (more, operands) ← go fuel rest
      return (more, a :: operands)

/-! ## Texts -/

/-- The lines of a text without their line breaks. -/
def linesOf (text : String) : List String :=
  if text.isEmpty then []
  else
    let parts := text.splitOn "\n"
    if text.endsWith "\n" then parts.dropLast else parts

/-- Whether the last line of a text has no line break. -/
def endsOpen (text : String) : Bool := !text.isEmpty && !text.endsWith "\n"

/-- A text of lines. -/
def ofLines (lines : List String) : String := String.join (lines.map (· ++ "\n"))

/-- The text of a file, or what is left of the standard input if the name is a dash. -/
def input (path : String) : Tool (Except OsError String) := do
  let p ← get
  if path == "-" then
    match p.drain 0 with
    | .ok (text, p) =>
      set p
      return .ok text
    | .error e => return .error e
  else return p.contents path

/-- A number in decimal digits. -/
def nat? (s : String) : Option Nat :=
  if !s.isEmpty && s.toList.all Char.isDigit then
    some (s.toList.foldl (fun n c => 10 * n + (c.toNat - 48)) 0)
  else none

/-- A text filled with blanks up to a width, on its right side. -/
def padRight (width : Nat) (s : String) : String := s ++ "".pushn ' ' (width - s.length)

/-- A text filled with blanks up to a width, on its left side. -/
def padLeft (width : Nat) (s : String) : String := "".pushn ' ' (width - s.length) ++ s

/-- The factor that the letters after a number stand for. -/
def factor? (letters : String) : Option Nat :=
  match letters with
  | "" => some 1
  | "b" => some 512
  | "kB" => some 1000
  | "K" | "k" | "KiB" => some 1024
  | "MB" => some (Nat.pow 1000 2)
  | "M" | "m" | "MiB" => some (Nat.pow 1024 2)
  | "GB" => some (Nat.pow 1000 3)
  | "G" | "GiB" => some (Nat.pow 1024 3)
  | _ => none

/-- A number with a factor after it. -/
def amount? (s : String) : Option Nat := do
  let digits := s.toList.takeWhile Char.isDigit
  let n ← nat? (String.ofList digits)
  let k ← factor? (String.ofList (s.toList.drop digits.length))
  return n * k

/-- Runs the work of a program on a process, and tells its status. -/
def perform (t : Tool Nat) : StateM Process Nat := do
  match ← t.run with
  | .ok n => return n
  | .error n => return n

/-- How programs start others: their status, or why they cannot be started. -/
abbrev Launch := List String → Tool (Except OsError Nat)

/-- Does something with each of some things. The status is the worst one. -/
def forEach {α : Type} (things : List α) (f : α → Tool Nat) : Tool Nat :=
  things.foldlM (fun worst a => do return max worst (← f a)) 0

end Tool

end Provision
