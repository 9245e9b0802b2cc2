import Provision.Yaml.Decode
import Provision.Yaml.Value.Loose

/-!
# Reading values

A node is read as a value strictly or loosely. Strictly, tags of one's own are kept and no
mapping may have a key twice. Loosely, such tags are refused and repeated keys are kept; what
has been read loosely is matched against several shapes afterwards.
-/

namespace Provision.Yaml.Decode

/-- The tag of one's own that a node bears. -/
def ownTag : Node → Option String
  | .scalar _ (some (.custom name)) .. => some name
  | .sequence _ (some (.custom name)) _ => some name
  | .mapping _ (some (.custom name)) _ => some name
  | _ => none

/-- The reader of the parts of a collection, which is missing at the greatest depth. -/
def partReader {α : Type} (inner : Option (Target → Decode α)) (m : Mark) :
    Decode (Target → Decode α) :=
  inner.elim (throw (.recursionLimit m)) pure

/-! ## Strictly -/

/-- The entries of a mapping, the first ones given in reverse. -/
def gather (read : Target → Decode Value) (done : List (Value × Value)) (key value : Target) :
    Decode (List (Value × Value)) := do
  let k ← read key
  match done.find? fun e => e.1.same k with
  | some earlier => complain (.duplicateEntry earlier.1)
  | none => return (k, ← read value) :: done

/-- A value without its tag of its own. -/
def bareValue (inner : Option (Target → Decode Value)) (t : Target) : Decode Value := do
  match t.node with
  | .scalar _ tag style text =>
    let s ← scalarMeaning tag style text
    match s.value? with
    | some v => return v
    | none => complain (.unexpected (.scalar s) "any YAML value")
  | .sequence m _ nodes => return .sequence (← items (← partReader inner m) t.path 0 nodes)
  | .mapping m _ es =>
    let done ← entries (gather (← partReader inner m)) t.path [] es
    return .mapping done.reverse
  | _ => cut

/-- A value with its tag. -/
def valueStep (inner : Option (Target → Decode Value)) (t : Target) : Decode Value := do
  let t ← follow t
  placed t.path t.node.mark do
    let v ← bareValue inner t
    return (ownTag t.node).elim v fun name => .tagged name v

/-- A value whose collections nest at most `depth` deep. -/
def value : Nat → Target → Decode Value
  | 0, t => valueStep none t
  | depth + 1, t => valueStep (some (value depth)) t

/-! ## Loosely -/

/-- The entries of a mapping, the first ones given in reverse. -/
def gatherLoosely (read : Target → Decode Loose) (done : List (Loose × Loose))
    (key value : Target) : Decode (List (Loose × Loose)) := do
  return (← read key, ← read value) :: done

/-- What is kept of a node. -/
def looseStep (inner : Option (Target → Decode Loose)) (t : Target) : Decode Loose := do
  let t ← follow t
  placed t.path t.node.mark do
    if (ownTag t.node).isSome then complain .taggedVariant
    match t.node with
    | .scalar _ tag style text =>
      let s ← scalarMeaning tag style text
      match Loose.ofScalar? text s with
      | some v => return v
      | none => complain (.unexpected (.scalar s) "any value")
    | .sequence m _ nodes => return .sequence (← items (← partReader inner m) t.path 0 nodes)
    | .mapping m _ es =>
      let done ← entries (gatherLoosely (← partReader inner m)) t.path [] es
      return .mapping done.reverse
    | _ => cut

/-- What is kept of a node whose collections nest at most `depth` deep. -/
def loose : Nat → Target → Decode Loose
  | 0, t => looseStep none t
  | depth + 1, t => looseStep (some (loose depth)) t

end Provision.Yaml.Decode
