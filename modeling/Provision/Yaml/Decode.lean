import Provision.Yaml.Node.Read
import Provision.Yaml.Scalar

/-!
# Decoding documents

The combinators with which typed data are read from a tree, and the errors they give. An
error names the innermost node that it concerns by a path and a mark. Collections nest at
most 128 deep, and references are followed at most a hundred times per node of the document.

> `Error.message`: the wording of an error.

Mirrors the deserialiser of the YAML library: the path and the mark of an error, the bound on
nesting and the one on repetitions. The count of references is the state of the decoder, and
the bound on nesting is what its recursion is on.
-/

namespace Provision.Yaml

/-! ## Errors -/

/-- A step from a node to a part of it. -/
inductive Step
  | item (index : Nat)
  | entry (key : String)
  /-- An entry whose key is not a scalar. -/
  | unknown
  /-- From a reference to what it stands for. -/
  | target
deriving DecidableEq, Repr

/-- The steps from the root, last one first. -/
abbrev Path := List Step

namespace Path

mutual

/-- A path as messages show it. -/
def text : Path → String
  | [] => "."
  | .item i :: parent => s!"{text parent}[{i}]"
  | .entry k :: parent => lead parent ++ k
  | .unknown :: parent => lead parent ++ "?"
  | .target :: parent => text parent

/-- A path in front of a key. -/
def lead : Path → String
  | [] => ""
  | .item i :: parent => s!"{text parent}[{i}]."
  | .entry k :: parent => lead parent ++ k ++ "."
  | .unknown :: parent => lead parent ++ "?."
  | .target :: parent => text parent ++ "."

end

end Path

/-- What is found where something else is expected. -/
inductive Found
  | scalar (s : Scalar)
  | sequence
  | mapping
deriving DecidableEq, Repr

/-- The wording of what is found. -/
def Found.text : Found → String
  | scalar s => s.described
  | sequence => "sequence"
  | mapping => "map"

/-- What is wrong with a node. -/
inductive Complaint
  | unexpected (found : Found) (expected : String)
  | unmet (text : String) (demand : Scalar.Demand)
  | missingField (name : String)
  | unknownField (name : String) (known : List String)
  | duplicateField (name : String)
  | duplicateEntry (key : Value)
  | noVariant (type : String)
  | taggedVariant

/-- The wording of a demand. -/
def Scalar.Demand.text : Scalar.Demand → String
  | null => "null"
  | boolean => "a boolean"
  | integer => "an integer"
  | float => "a float"

/-- The wording of a choice of names. -/
def oneOf (names : List String) : String :=
  match names.map fun n => s!"\x60{n}\x60" with
  | [] => "there are no fields"
  | [a] => s!"expected {a}"
  | [a, b] => s!"expected {a} or {b}"
  | all => "expected one of " ++ ", ".intercalate all

/-- The wording of a complaint. -/
def Complaint.text : Complaint → String
  | unexpected found expected => s!"invalid type: {found.text}, expected {expected}"
  | unmet s demand => s!"invalid value: string {Text.quoted s}, expected {demand.text}"
  | missingField name => s!"missing field \x60{name}\x60"
  | unknownField name known => s!"unknown field \x60{name}\x60, {oneOf known}"
  | duplicateField name => s!"duplicate field \x60{name}\x60"
  | duplicateEntry key => "duplicate entry " ++ (match key with
    | .null => "with null key"
    | .bool b => s!"with key \x60{Value.boolText b}\x60"
    | .integer n => s!"with key {n}"
    | .float x => s!"with key {Value.numberLayout.text x}"
    | .string s => s!"with key {Text.quoted s}"
    | _ => "in YAML map")
  | noVariant type => s!"data did not match any variant of untagged enum {type}"
  | taggedVariant => "untagged and internally tagged enums do not support enum input"

/-- Why a text could not be decoded. -/
inductive Error
  | complaint (c : Complaint) (place : Option (Path × Mark))
  | fault (f : Fault)
  | endOfText
  | recursionLimit (mark : Mark)
  | repetitionLimit
  | moreDocuments

namespace Error

/-- The wording of an error. A complaint about the root bears no path. -/
def message : Error → String
  | complaint c none => c.text
  | complaint c (some (path, m)) =>
    (if path.text == "." then "" else path.text ++ ": ") ++ c.text ++ m.suffix
  | fault f => f.message
  | endOfText => "EOF while parsing a value"
  | recursionLimit m => "recursion limit exceeded" ++ m.suffix
  | repetitionLimit => "repetition limit exceeded"
  | moreDocuments =>
    "deserializing from YAML containing more than one document is not supported"

/-- Gives a complaint its place, unless it has one. -/
def placedAt (path : Path) (m : Mark) : Error → Error
  | complaint c none => complaint c (some (path, m))
  | e => e

end Error

/-! ## Decoders -/

/-- What decoders know of the document. -/
structure Surroundings where
  anchored : List (Nat × Node)
  fault : Option Fault
  /-- How many references may be followed. -/
  limit : Nat

/-- Decoders count the references they follow. -/
abbrev Decode := ReaderT Surroundings (StateT Nat (Except Error))

namespace Decode

/-- Fails with a complaint that has no place yet. -/
def complain {α : Type} (c : Complaint) : Decode α := throw (.complaint c none)

/-- Places the complaints of a decoder. -/
def placed {α : Type} (path : Path) (m : Mark) (d : Decode α) : Decode α :=
  fun env n => match d env n with
    | .ok r => .ok r
    | .error e => .error (e.placedAt path m)

/-- Fails because the text ends here. -/
def cut {α : Type} : Decode α := do
  match (← read).fault with
  | some f => throw (.fault f)
  | none => throw .endOfText

/-- A node to be decoded, and where it is. -/
structure Target where
  node : Node
  path : Path

/-- Follows a reference. -/
def follow (t : Target) : Decode Target := do
  match t.node with
  | .reference _ id =>
    let n ← get
    let env ← read
    if env.limit ≤ n then throw .repetitionLimit
    set (n + 1)
    match env.anchored.find? (·.1 == id) with
    | some (_, node) => return ⟨node, .target :: t.path⟩
    | none => throw .endOfText
  | _ => return t

/-- The meaning of a scalar, as seen by something that expects a certain thing. -/
def scalarMeaning (tag : Option Tag) (style : Style) (text : String) : Decode Scalar :=
  match Scalar.ofNode tag style text with
  | .ok s => return s
  | .error d => complain (.unmet text d)

/-- Complains about a scalar. -/
def wrongScalar {α : Type} (expected : String) (tag : Option Tag) (style : Style)
    (text : String) : Decode α := do
  complain (.unexpected (.scalar (← scalarMeaning tag style text)) expected)

/-- How deep collections may nest. -/
def maxDepth : Nat := 128

/-- The next depth inside a collection. -/
def deeper (depth : Nat) (m : Mark) : Decode Nat :=
  match depth with
  | 0 => throw (.recursionLimit m)
  | d + 1 => return d

/-- Whether a scalar stands for an empty collection. -/
def isBlank (style : Style) (text : String) : Bool := style == .plain && text.isEmpty

/-- A string: the text of any scalar. -/
def string (expected : String) (t : Target) : Decode String := do
  let t ← follow t
  match t.node with
  | .scalar _ _ _ text => return text
  | .sequence m .. => placed t.path m (complain (.unexpected .sequence expected))
  | .mapping m .. => placed t.path m (complain (.unexpected .mapping expected))
  | _ => cut

/-- An optional value: absent if the node is null. -/
def option {α : Type} (present : Target → Decode α) (t : Target) : Decode (Option α) := do
  let t ← follow t
  match t.node with
  | .scalar _ tag style text =>
    if style != .plain then some <$> present t
    else match tag with
      | none =>
        if text.isEmpty || Scalar.isNull text.toList then return none else some <$> present t
      | some .null =>
        if Scalar.isNull text.toList then return none else complain (.unmet text .null)
      | some _ => some <$> present t
  | .cut => cut
  | _ => some <$> present t

/-- The items of a sequence, decoded one after another. -/
def items {α : Type} (item : Target → Decode α) (path : Path) : Nat → List Node → Decode (List α)
  | _, [] => return []
  | i, n :: rest => do
    let x ← item ⟨n, .item i :: path⟩
    return x :: (← items item path (i + 1) rest)

/-- A sequence; an empty plain scalar counts as one. -/
def sequence {α : Type} (item : Nat → Target → Decode α) (depth : Nat) (t : Target) :
    Decode (List α) := do
  let t ← follow t
  match t.node with
  | .sequence m _ nodes =>
    placed t.path m do
      let depth ← deeper depth m
      items (item depth) t.path 0 nodes
  | .scalar m tag style text =>
    if isBlank style text then return []
    else placed t.path m (wrongScalar "a sequence" tag style text)
  | .mapping m .. => placed t.path m (complain (.unexpected .mapping "a sequence"))
  | _ => cut

/-- The step to the value under a key. -/
def stepTo (key : Node) : Step :=
  match key with
  | .scalar _ _ _ text => .entry text
  | _ => .unknown

/-- Goes through the entries of a mapping. `entry` decodes one of them, given the targets of
key and value and what has been gathered before. -/
def entries {σ : Type} (entry : σ → Target → Target → Decode σ) (path : Path) :
    σ → List (Node × Node) → Decode σ
  | s, [] => return s
  | s, (k, v) :: rest => do
    let s ← entry s ⟨k, path⟩ ⟨v, stepTo k :: path⟩
    entries entry path s rest

/-- A mapping, gathered from a start and finished in the end; an empty plain scalar counts as
one. -/
def mapping {σ α : Type} (expected : String) (start : σ)
    (entry : Nat → σ → Target → Target → Decode σ) (finish : σ → Decode α)
    (depth : Nat) (t : Target) : Decode α := do
  let t ← follow t
  match t.node with
  | .mapping m _ es =>
    placed t.path m do
      let depth ← deeper depth m
      finish (← entries (entry depth) t.path start es)
  | .scalar m tag style text =>
    placed t.path m do
      if isBlank style text then finish start else wrongScalar expected tag style text
  | .sequence m .. => placed t.path m (complain (.unexpected .sequence expected))
  | _ => cut

end Decode

/-- Decodes the only document of a text. -/
def decode {α : Type} (d : Decode.Target → Decode α) (text : String) : Except Error α := do
  let doc := Document.read text
  let env : Surroundings :=
    { anchored := doc.anchored, fault := doc.fault, limit := 100 * doc.size }
  let (x, _) ← d ⟨doc.root, []⟩ env 0
  if let some f := doc.fault then throw (.fault f)
  if doc.more then throw .moreDocuments
  return x

end Provision.Yaml
