/-!
# Log entries

What the program tells about its work, with a level and the part that tells it. Entries are
data; the command line decides which of them are shown.
-/

namespace Provision.Log

/-- How important an entry is. -/
inductive Level
  | error | warn | info | debug | trace
deriving DecidableEq, Repr

namespace Level

/-- The rank of a level, the most important one first. -/
def rank : Level → Nat
  | error => 1
  | warn => 2
  | info => 3
  | debug => 4
  | trace => 5

/-- Whether entries of a level are shown where the given one is chosen. -/
def shows (chosen level : Level) : Bool := level.rank ≤ chosen.rank

/-- The name of a level. -/
def text : Level → String
  | error => "ERROR"
  | warn => "WARN"
  | info => "INFO"
  | debug => "DEBUG"
  | trace => "TRACE"

end Level

/-- The parts of the program that write entries. -/
inductive Part
  | parser | graph | data | validator | executor | transport | cli
deriving DecidableEq, Repr

/-- The name of a part. -/
def Part.text : Part → String
  | parser => "systemconf::core::parser"
  | graph => "systemconf::core::graph"
  | data => "systemconf::core::data"
  | validator => "systemconf::core::validator"
  | executor => "systemconf::core::executor"
  | transport => "systemconf::transport"
  | cli => "systemconf::cli"

/-- An entry. -/
structure Entry where
  level : Level
  part : Part
  text : String
deriving DecidableEq, Repr

namespace Entry

/-- The entry as it is shown: the level is as wide as the widest one, and further lines of the
text have a margin. -/
def line (e : Entry) : String :=
  let level := e.level.text
  let pad := String.ofList (List.replicate (5 - level.length) ' ')
  let text := String.ofList (e.text.toList.flatMap fun c =>
    if c = '\n' then ['\n', ' ', ' ', ' ', ' '] else [c])
  s!"[{level}{pad} {e.part.text}] {text}"

end Entry

end Provision.Log
