import Provision.Yaml.Source

/-!
# Tokens

The pieces a text is made of: the brackets and indicators of the flow style, the block
structure that indentation expresses, properties of nodes, and scalars.
-/

namespace Provision.Yaml

/-- How a scalar is written. -/
inductive Style
  | plain | single | double | literal | folded
deriving DecidableEq, Repr

/-- A token. Tag suffixes and stems are bytes, because escapes can spell any byte. -/
inductive Token
  | streamEnd
  | versionDirective (major minor : Nat)
  | handleDirective (handle : String) (stem : List UInt8)
  | documentStart | documentEnd
  | blockSequenceStart | blockMappingStart | blockEnd
  | flowSequenceStart | flowSequenceEnd | flowMappingStart | flowMappingEnd
  | blockEntry | flowEntry | key | value
  | aliasName (name : String)
  | anchor (name : String)
  | tag (handle : String) (suffix : List UInt8)
  | scalar (style : Style) (text : List Char)
deriving DecidableEq, Repr

/-- A token with the marks where it begins and where an empty node after it would stand. -/
structure Placed where
  token : Token
  start : Mark
  stop : Mark
deriving DecidableEq, Repr

namespace Placed

/-- A token without extent. -/
def point (t : Token) (m : Mark) : Placed := ⟨t, m, m⟩

/-- A token of one character, an indicator. -/
def single (t : Token) (m : Mark) : Placed := ⟨t, m, m.next '-'⟩

end Placed

end Provision.Yaml
