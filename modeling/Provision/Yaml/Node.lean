import Provision.Yaml.Token
import Provision.Text.Utf8

/-!
# Documents as trees

A document is a tree of scalars, sequences and mappings. An alias stays a reference to the
numbered anchor it names, since a node may contain a reference to itself. Where a text is
ill-formed from some point on, the tree ends there with `cut`: what was read before can still
be wrong in a way that is reported first.

Mirrors the events of the YAML library as a tree.
-/

namespace Provision.Yaml

/-- What a tag says of a node: a type of the core schema, a name of one's own, or nothing
that matters here. -/
inductive Tag
  | null | bool | int | float
  | custom (name : String)
  /-- A tag of one's own whose name is no text. -/
  | nameless
  | other
deriving DecidableEq, Repr

namespace Tag

/-- The name of a tag that begins with `!`, a further `!` not counting. The tag `!` is its
own name. -/
def ownName (afterBang : List Char) : String :=
  match afterBang with
  | [] | ['!'] => "!"
  | '!' :: rest => String.ofList rest
  | rest => String.ofList rest

/-- The meaning of a tag's bytes, of which those from a `NUL` on do not count. -/
def ofBytes (bytes : List UInt8) : Tag :=
  match Text.Utf8.strict? (bytes.takeWhile (· ≠ 0)) with
  | none => if bytes.head? = some 0x21 then .nameless else .other
  | some s =>
    if s = "tag:yaml.org,2002:null" then .null
    else if s = "tag:yaml.org,2002:bool" then .bool
    else if s = "tag:yaml.org,2002:int" then .int
    else if s = "tag:yaml.org,2002:float" then .float
    else match s.toList with
      | '!' :: rest => .custom (ownName rest)
      | _ => .other

end Tag

/-- A node of a document. -/
inductive Node
  | scalar (mark : Mark) (tag : Option Tag) (style : Style) (text : String)
  | sequence (mark : Mark) (tag : Option Tag) (items : List Node)
  | mapping (mark : Mark) (tag : Option Tag) (entries : List (Node × Node))
  | reference (mark : Mark) (anchor : Nat)
  | cut

namespace Node

/-- Where a node begins. -/
def mark : Node → Mark
  | scalar m .. | sequence m .. | mapping m .. | reference m _ => m
  | cut => {}

end Node

/-- A document, and what follows it in its text. -/
structure Document where
  /-- The node. A text without one counts as an empty scalar at its end. -/
  root : Node
  /-- The nodes that references stand for. -/
  anchored : List (Nat × Node)
  /-- How many scalars, references and ends of collections it has. -/
  size : Nat
  /-- What is wrong with the text at `cut`, or right after the document. -/
  fault : Option Fault
  /-- Whether something other than the end of the text follows. -/
  more : Bool

end Provision.Yaml
