import Provision.Yaml.Node
import Provision.Yaml.Token.Scan

/-!
# Building trees from tokens

Recursive descent over the tokens. Nothing is thrown: once a fault has been met, all that is
still open closes around a `cut`.

> `Document.read`: the first document of a text.

Mirrors the parser of the YAML library. Its stack of states is the recursion of the descent,
and the tokens are a list that has been scanned before; the fault of the scanner is met where
the list ends.
-/

namespace Provision.Yaml

/-- What is known while a document is being built. -/
structure Building where
  tokens : List Placed
  /-- The fault that ends the tokens. -/
  fault : Option Fault
  /-- The fault that has been met. -/
  stopped : Option Fault := none
  handles : List (String × List UInt8) := []
  /-- The number of each anchor's name. -/
  names : List (String × Nat) := []
  /-- For each number the order of the last node that bears it. -/
  bearers : List (Nat × Nat) := []
  /-- How many anchored nodes have begun. -/
  begun : Nat := 0
  /-- The anchored nodes that are built, by their order. -/
  built : List (Nat × Node) := []
  size : Nat := 0

/-- Steps of building a tree. -/
abbrev Build := StateM Building

namespace Build

/-- Meets a fault. -/
def stop (f : Fault) : Build Unit :=
  modify fun b => { b with stopped := b.stopped <|> some f }

/-- Whether a fault has been met. -/
def isStopped : Build Bool := return (← get).stopped.isSome

/-- The next token, unless a fault has been or is met. -/
def peek : Build (Option Placed) := do
  let b ← get
  if b.stopped.isSome then return none
  match b.tokens with
  | t :: _ => return some t
  | [] => set { b with stopped := b.fault }; return none

/-- Passes over the next token. -/
def advance : Build Unit := modify fun b => { b with tokens := b.tokens.drop 1 }

/-- Counts a scalar, a reference or an end of a collection. -/
def count : Build Unit := modify fun b => { b with size := b.size + 1 }

/-- A node without text. -/
def empty (m : Mark) : Build Node := do
  count
  return .scalar m none .plain ""

/-- Gives an anchor the number of distinct names before it, and says that its node begins. -/
def beginAnchor (name : String) : Build Nat := do
  let b ← get
  let id := b.names.length
  let names := if b.names.any (·.1 == name) then
      b.names.map fun e => if e.1 == name then (name, id) else e
    else b.names ++ [(name, id)]
  set { b with
    names := names
    bearers := (id, b.begun) :: b.bearers.filter (·.1 != id)
    begun := b.begun + 1 }
  return b.begun

/-- Says that the anchored node of an order is built. -/
def finishAnchor (order : Option Nat) (n : Node) : Build Node := do
  if let some k := order then modify fun b => { b with built := (k, n) :: b.built }
  return n

/-- The properties before a node: anchor, tag, and the mark of the first one. -/
structure Properties where
  anchor : Option String := none
  tag : Option (String × List UInt8 × Mark) := none
  start : Option Mark := none

/-- Reads an anchor and a tag in either order, each at most once. -/
def properties : Nat → Properties → Build Properties
  | 0, p => return p
  | fuel + 1, p => do
    match ← peek with
    | some ⟨.anchor name, m, _⟩ =>
      if p.anchor.isSome then return p
      advance
      properties fuel { p with anchor := some name, start := p.start <|> some m }
    | some ⟨.tag handle suffix, m, _⟩ =>
      if p.tag.isSome then return p
      advance
      properties fuel { p with tag := some (handle, suffix, m), start := p.start <|> some m }
    | _ => return p

/-- The bytes of a tag, its handle replaced by what it stands for. -/
def tagBytes (start : Mark) : Option (String × List UInt8 × Mark) → Build (Option (List UInt8))
  | none => return none
  | some (handle, suffix, m) => do
    if handle.isEmpty then return some suffix
    match (← get).handles.find? (·.1 == handle) with
    | some (_, stem) => return some (stem.takeWhile (· ≠ 0) ++ suffix)
    | none => stop (.inside .node start .handleUndefined m); return none

/-- Whether a token ends an entry of a block mapping. -/
def endsBlockEntry (t : Token) : Bool := t == .key || t == .value || t == .blockEnd

/-- Whether a token ends an entry of a flow mapping. -/
def endsFlowEntry (t : Token) : Bool := t == .flowEntry || t == .flowMappingEnd

/-- Whether a token ends an entry of a flow sequence. -/
def endsFlowItem (t : Token) : Bool := t == .flowEntry || t == .flowSequenceEnd

/-- Passes over the comma before an entry that is not the first, and over nothing at the end
of the collection. -/
def separator (first : Bool) (close : Token) (within : Construct) (start : Mark)
    (missing : Problem) : Build Unit := do
  let some t ← peek | return
  if first || t.token == close then return
  if t.token == .flowEntry then advance
  else stop (.inside within start missing t.start)

mutual

/-- A node. In a block context the block collections are allowed, and in the entries of a
mapping also a sequence that is not indented. -/
def node : Nat → Bool → Bool → Build Node
  | 0, _, _ => return .cut
  | fuel + 1, block, indentless => do
    let some first ← peek | return .cut
    if let .aliasName name := first.token then
      advance
      match (← get).names.find? (·.1 == name) with
      | some (_, id) => count; return .reference first.start id
      | none => stop (.unknownAnchor first.start); return .cut
    let p ← properties 2 {}
    let some t ← peek | return .cut
    let start := p.start.getD t.start
    let bytes ← tagBytes start p.tag
    if ← isStopped then return .cut
    let tag := bytes.map Tag.ofBytes
    let order ← p.anchor.mapM beginAnchor
    let n ← content fuel block indentless start tag p t
    finishAnchor order n

/-- What stands after the properties of a node. -/
def content : Nat → Bool → Bool → Mark → Option Tag → Properties → Placed → Build Node
  | 0, _, _, _, _, _, _ => return .cut
  | fuel + 1, block, indentless, start, tag, p, t => do
    match t.token, block, indentless with
    | .blockEntry, _, true => count; return .sequence start tag (← indentlessItems fuel)
    | .scalar style text, _, _ =>
      advance; count
      return .scalar start tag style (String.ofList text)
    | .flowSequenceStart, _, _ =>
      advance; count
      return .sequence start tag (← flowItems fuel true t.start)
    | .flowMappingStart, _, _ =>
      advance; count
      return .mapping start tag (← flowEntries fuel true t.start)
    | .blockSequenceStart, true, _ =>
      advance; count
      return .sequence start tag (← blockItems fuel t.start)
    | .blockMappingStart, true, _ =>
      advance; count
      return .mapping start tag (← blockEntries fuel t.start)
    | _, _, _ =>
      if p.anchor.isSome || p.tag.isSome then
        count
        return .scalar start tag .plain ""
      stop (.inside (if block then .blockNode else .flowNode) start .missingContent t.start)
      return .cut

/-- The items of a block sequence that began at a mark. -/
def blockItems : Nat → Mark → Build (List Node)
  | 0, _ => return [.cut]
  | fuel + 1, start => do
    let some t ← peek | return [.cut]
    match t.token with
    | .blockEntry =>
      advance
      let some t' ← peek | return [.cut]
      let item ← if t'.token == .blockEntry || t'.token == .blockEnd then empty t.stop
        else node fuel true false
      if ← isStopped then return [item]
      return item :: (← blockItems fuel start)
    | .blockEnd => advance; count; return []
    | _ => stop (.inside .blockSequence start .missingDash t.start); return [.cut]

/-- The items of a block sequence that is not indented. -/
def indentlessItems : Nat → Build (List Node)
  | 0 => return [.cut]
  | fuel + 1 => do
    let some t ← peek | return [.cut]
    match t.token with
    | .blockEntry =>
      advance
      let some t' ← peek | return [.cut]
      let item ← if t'.token == .blockEntry || endsBlockEntry t'.token then empty t.stop
        else node fuel true false
      if ← isStopped then return [item]
      return item :: (← indentlessItems fuel)
    | _ => count; return []

/-- The entries of a block mapping that began at a mark. -/
def blockEntries : Nat → Mark → Build (List (Node × Node))
  | 0, _ => return [(.cut, .cut)]
  | fuel + 1, start => do
    let some t ← peek | return [(.cut, .cut)]
    match t.token with
    | .key =>
      advance
      let some k ← peek | return [(.cut, .cut)]
      let key ← if endsBlockEntry k.token then empty t.stop else node fuel true true
      if ← isStopped then return [(key, .cut)]
      let some v ← peek | return [(key, .cut)]
      let value ← if v.token == .value then do
          advance
          match ← peek with
          | none => pure .cut
          | some t' => if endsBlockEntry t'.token then empty v.stop else node fuel true true
        else empty v.start
      if ← isStopped then return [(key, value)]
      return (key, value) :: (← blockEntries fuel start)
    | .blockEnd => advance; count; return []
    | _ => stop (.inside .blockMapping start .missingKey t.start); return [(.cut, .cut)]

/-- The items of a flow sequence that began at a mark. An entry with a key is a mapping of
its own. -/
def flowItems : Nat → Bool → Mark → Build (List Node)
  | 0, _, _ => return [.cut]
  | fuel + 1, first, start => do
    separator first .flowSequenceEnd .flowSequence start .missingBracket
    let some t ← peek | return [.cut]
    match t.token with
    | .flowSequenceEnd => advance; count; return []
    | token =>
      let item ← if token == .key then do
          advance; count
          pure (.mapping t.start none (← pair fuel))
        else node fuel false false
      if ← isStopped then return [item]
      return item :: (← flowItems fuel false start)

/-- The one entry of a mapping inside a flow sequence, after its key indicator. A value
indicator that follows at once counts as the missing key. The mapping ends only where a token
follows. -/
def pair : Nat → Build (List (Node × Node))
  | 0 => return [(.cut, .cut)]
  | fuel + 1 => do
    let some t ← peek | return [(.cut, .cut)]
    let key ← if t.token == .value || endsFlowItem t.token then do
        advance
        empty t.stop
      else node fuel false false
    if ← isStopped then return [(key, .cut)]
    let some v ← peek | return [(key, .cut)]
    let value ← if v.token == .value then do
        advance
        match ← peek with
        | none => pure .cut
        | some t' => if endsFlowItem t'.token then empty t'.start else node fuel false false
      else empty v.start
    if ← isStopped then return [(key, value)]
    let some _ ← peek | return [(key, value), (.cut, .cut)]
    count
    return [(key, value)]

/-- The entries of a flow mapping that began at a mark. -/
def flowEntries : Nat → Bool → Mark → Build (List (Node × Node))
  | 0, _, _ => return [(.cut, .cut)]
  | fuel + 1, first, start => do
    separator first .flowMappingEnd .flowMapping start .missingBrace
    let some t ← peek | return [(.cut, .cut)]
    match t.token with
    | .flowMappingEnd => advance; count; return []
    | .key =>
      advance
      let some k ← peek | return [(.cut, .cut)]
      let key ← if k.token == .value || endsFlowEntry k.token then empty k.start
        else node fuel false false
      if ← isStopped then return [(key, .cut)]
      let some v ← peek | return [(key, .cut)]
      let value ← if v.token == .value then do
          advance
          match ← peek with
          | none => pure .cut
          | some t' => if endsFlowEntry t'.token then empty t'.start else node fuel false false
        else empty v.start
      if ← isStopped then return [(key, value)]
      return (key, value) :: (← flowEntries fuel false start)
    | _ =>
      let key ← node fuel false false
      if ← isStopped then return [(key, .cut)]
      let some v ← peek | return [(key, .cut)]
      let value ← empty v.start
      return (key, value) :: (← flowEntries fuel false start)

end

/-! ## Documents -/

/-- The default meanings of handles. -/
def defaultHandles : List (String × List UInt8) :=
  [("!", [0x21]), ("!!", Text.Utf8.encode "tag:yaml.org,2002:")]

/-- Reads the directives before a document. -/
def directives : Nat → Bool → Build Unit
  | 0, _ => return
  | fuel + 1, versioned => do
    let some t ← peek | return
    match t.token with
    | .versionDirective major minor =>
      if versioned then stop (.bare .versionTwice t.start)
      else if major != 1 || (minor != 1 && minor != 2) then
        stop (.bare .versionUnsupported t.start)
      else advance; directives fuel true
    | .handleDirective handle stem =>
      if (← get).handles.any (·.1 == handle) then stop (.bare .handleTwice t.start)
      else
        modify fun b => { b with handles := b.handles ++ [(handle, stem)] }
        advance; directives fuel versioned
    | _ => return

/-- Whether a token opens a document explicitly. -/
def opensDocument : Token → Bool
  | .versionDirective .. | .handleDirective .. | .documentStart => true
  | _ => false

/-- Whether a document whose content would begin with the token is empty. -/
def leavesEmpty : Token → Bool
  | .documentEnd | .streamEnd => true
  | t => opensDocument t

/-- The node of a document. -/
def document (fuel : Nat) (first : Placed) : Build Node := do
  if opensDocument first.token then
    directives fuel false
    let some t ← peek | return .cut
    if t.token != .documentStart then stop (.bare .documentStart t.start); return .cut
    advance
    modify fun b => { b with handles := b.handles ++ defaultHandles }
    let some t ← peek | return .cut
    if leavesEmpty t.token then empty t.start else node fuel true false
  else
    modify fun b => { b with handles := defaultHandles }
    node fuel true false

/-- Whether nothing but ends of documents stands before the end of the text. -/
def restIsEmpty : List Placed → Bool
  | [] => false
  | t :: rest => t.token == .streamEnd || (t.token == .documentEnd && restIsEmpty rest)

/-- The first document and what follows it. -/
def first (fuel : Nat) : Build Document := do
  match ← peek with
  | some t =>
    if t.token == .streamEnd then
      return { root := .scalar t.start none .plain "", anchored := [], size := 1,
               fault := none, more := false }
    let n ← document fuel t
    let _ ← peek
    let b ← get
    let anchored := b.bearers.filterMap fun (id, order) =>
      (b.built.find? (·.1 == order)).map fun e => (id, e.2)
    return { root := n, anchored := anchored, size := b.size, fault := b.stopped,
             more := !restIsEmpty b.tokens }
  | none =>
    return { root := .cut, anchored := [], size := 0, fault := (← get).stopped, more := false }

end Build

/-- The first document of a text. -/
def Document.read (text : String) : Document :=
  let t := scan text
  ((Build.first (4 * t.list.length + 8)).run { tokens := t.list, fault := t.fault }).1

end Provision.Yaml
