import Provision.Yaml.Scalar

/-!
# Loosely read values

What is kept of a node while it is open what the node has to be. Keys may be repeated, and a
whole number tells whether it was written with a minus sign.

> `value?`: the value that has been read, if no mapping in it has a key twice.

Mirrors the content that the deserialiser of an untagged union buffers.
-/

namespace Provision.Yaml

open Provision.Number (Binary64)

/-- A value whose shape is not known yet. -/
inductive Loose
  | null
  | bool (b : Bool)
  | integer (n : Int) (minus : Bool)
  | float (x : Binary64)
  | string (s : String)
  | sequence (items : List Loose)
  | mapping (entries : List (Loose × Loose))

namespace Loose

/-- What is kept of a scalar that is spelt so, if it fits. -/
def ofScalar? (spelling : String) : Scalar → Option Loose
  | .null => some .null
  | .bool b => some (.bool b)
  | .integer n => some (.integer n (spelling.startsWith "-"))
  | .wide _ => none
  | .float x => some (.float x)
  | .string s => some (.string s)

mutual

/-- The value that has been read. -/
def value? : Loose → Option Value
  | .null => some .null
  | .bool b => some (.bool b)
  | .integer n _ => some (.integer n)
  | .float x => some (.float x)
  | .string s => some (.string s)
  | .sequence items => (values? items).map .sequence
  | .mapping es => do
    let es ← entries? es
    if Value.distinctKeys es then some (.mapping es) else none

/-- The values of a list. -/
def values? : List Loose → Option (List Value)
  | [] => some []
  | v :: rest => do return (← value? v) :: (← values? rest)

/-- The entries of a mapping, repeated ones included. -/
def entries? : List (Loose × Loose) → Option (List (Value × Value))
  | [] => some []
  | (k, v) :: rest => do return (← value? k, ← value? v) :: (← entries? rest)

end

end Loose

end Provision.Yaml
