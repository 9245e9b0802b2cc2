import Provision.Yaml.Scalar

/-!
# Outlines

What is to be written as a document: scalars with the style that is wanted for them,
sequences and mappings, each with its tag.

> `ofValue`: every value has an outline, unless a mapping in it has one entry only and the
> key of that would be taken for a tag.

Mirrors the serialiser of the YAML library, up to the events that it hands to the emitter.
-/

namespace Provision.Yaml

/-- A document to be written. -/
inductive Outline
  | scalar (tag : Option String) (style : Style) (text : String)
  | sequence (tag : Option String) (items : List Outline)
  | mapping (tag : Option String) (entries : List (Outline × Outline))

/-- Why a value cannot be written. -/
inductive WriteError
  /-- The key of the only entry of a mapping is tagged or has one entry itself. -/
  | keyOfOnlyEntry
deriving DecidableEq, Repr

/-- The wording of the reason. -/
def WriteError.message : WriteError → String
  | keyOfOnlyEntry => "expected SCALAR, SEQUENCE-START, MAPPING-START, or ALIAS"

namespace Outline

/-- The style that is wanted for a string: literal if it has several lines, quoted if it
would mean something else as it is. -/
def stringStyle (s : String) : Style :=
  if s.toList.contains '\n' then .literal
  else if Scalar.hasLeadingZero s.toList then .single
  else match Scalar.ofPlain s with
    | .string _ => .plain
    | _ => .single

/-- A string. -/
def string (s : String) : Outline := .scalar none (stringStyle s) s

/-- A scalar that is not a string. -/
def plain (s : String) : Outline := .scalar none .plain s

/-- A string that may be absent. -/
def optional (o : Option String) : Outline := o.elim (plain "null") string

/-- A mapping with strings for keys. -/
def fields (l : List (String × Outline)) : Outline :=
  .mapping none (l.map fun e => (string e.1, e.2))

/-- A node with a tag. -/
def tagged (tag : String) : Outline → Outline
  | .scalar _ style text => .scalar (some tag) style text
  | .sequence _ items => .sequence (some tag) items
  | .mapping _ entries => .mapping (some tag) entries

/-- The tag for a name. -/
def tagOf (name : String) : String := if name.startsWith "!" then name else "!" ++ name

/-- Whether a value would be taken for a tag as the key of an only entry. -/
def isTagLike : Value → Bool
  | .tagged .. => true
  | .mapping [_] => true
  | _ => false

mutual

/-- The outline of a value. `bare` says that the value has no tag of its own. -/
def ofValueIn (bare : Bool) : Value → Except WriteError Outline
  | .null => .ok (plain "null")
  | .bool b => .ok (plain (Value.boolText b))
  | .integer n => .ok (plain (toString n))
  | .float x => .ok (plain (Value.numberLayout.text x))
  | .string s => .ok (string s)
  | .sequence items => (ofItems items).map (.sequence none)
  | .mapping entries =>
    match entries with
    | [(k, _)] =>
      if bare && isTagLike k then .error .keyOfOnlyEntry
      else (ofEntries entries).map (.mapping none)
    | _ => (ofEntries entries).map (.mapping none)
  | .tagged name v => (ofValueIn false v).map (tagged (tagOf name))

/-- The outlines of the items of a sequence. -/
def ofItems : List Value → Except WriteError (List Outline)
  | [] => .ok []
  | v :: rest => do return (← ofValueIn true v) :: (← ofItems rest)

/-- The outlines of the entries of a mapping. -/
def ofEntries : List (Value × Value) → Except WriteError (List (Outline × Outline))
  | [] => .ok []
  | (k, v) :: rest => do
    return (← ofValueIn true k, ← ofValueIn true v) :: (← ofEntries rest)

end

/-- The outline of a value. -/
def ofValue (v : Value) : Except WriteError Outline := ofValueIn true v

end Outline

end Provision.Yaml
