import Provision.Yaml.Token.Scalar
import Provision.Yaml.Token.Property

/-!
# Scanning a text into tokens

Block structure is told by columns: a node that stands further right than the open blocks
opens one, and a token that stands further left closes them. Whether a node is the key of a
mapping shows only at the `:` after it, so a place where a key may begin is remembered, and
the tokens from there on are held back until the question is settled.

> `scan`: the tokens that are settled, and the fault that ends them, if any.

Mirrors the token queue of the YAML library. The stack of possible keys is `outerKey` with
`flowKeys`, and a token that is inserted late goes before the tokens that are still held back.
-/

namespace Provision.Yaml

/-- A place where a key without indicator may have begun. -/
structure KeyPlace where
  /-- Whether nothing but a key can stand there. -/
  required : Bool
  /-- How many tokens come before it. -/
  ordinal : Nat
  mark : Mark

/-- The state between two tokens. -/
structure Scanner where
  source : Source
  /-- The columns of the open blocks, innermost first. -/
  blocks : List Nat := []
  /-- The open key place of the block context. -/
  outerKey : Option KeyPlace := none
  /-- The open key places of the flow collections, innermost first. -/
  flowKeys : List (Option KeyPlace) := []
  keyAllowed : Bool := true
  /-- Tokens held back, oldest first. -/
  pending : List Placed := []
  /-- How many tokens have been released. -/
  released : Nat := 0

namespace Scanner

/-- The mark of the next character. -/
def mark (s : Scanner) : Mark := Source.mark s.source

/-- Whether a flow collection is open. -/
def inFlow (s : Scanner) : Bool := !s.flowKeys.isEmpty

/-- The least column of further lines of the present block. -/
def margin (s : Scanner) : Nat := match s.blocks with | [] => 0 | c :: _ => c + 1

/-- The innermost key place. -/
def keyPlace (s : Scanner) : Option KeyPlace :=
  match s.flowKeys with | [] => s.outerKey | k :: _ => k

/-- Replaces the innermost key place. -/
def setKeyPlace (s : Scanner) (k : Option KeyPlace) : Scanner :=
  match s.flowKeys with
  | [] => { s with outerKey := k }
  | _ :: rest => { s with flowKeys := k :: rest }

/-- Adds a token at the end. -/
def push (s : Scanner) (t : Placed) : Scanner := { s with pending := s.pending ++ [t] }

/-- Adds a token before those that came after `ordinal`. -/
def pushAt (s : Scanner) (ordinal : Nat) (t : Placed) : Scanner :=
  let n := ordinal - s.released
  { s with pending := s.pending.take n ++ t :: s.pending.drop n }

/-- The fault of a key that was required and has no `:`. -/
def missingColon (s : Scanner) (k : KeyPlace) : Fault :=
  .inside .simpleKey k.mark .missingColon s.mark

/-- Gives up the innermost key place. -/
def dropKey (s : Scanner) : Except Fault Scanner :=
  match s.keyPlace with
  | none => .ok s
  | some k => if k.required then .error (s.missingColon k) else .ok (s.setKeyPlace none)

/-- Opens a key place at the next character, where keys are allowed. -/
def openKey (s : Scanner) : Except Fault Scanner := do
  if s.keyAllowed then
    let required := !s.inFlow && s.blocks.head? == some s.mark.column
    let s' ← s.dropKey
    return s'.setKeyPlace (some ⟨required, s.released + s.pending.length, s.mark⟩)
  else return s

/-- A key has to end on the line where it begins, within 1024 bytes. -/
def isStale (s : Scanner) (k : KeyPlace) : Bool :=
  k.mark.line < s.mark.line || k.mark.index + 1024 < s.mark.index

/-- Gives up one key place if it is stale. -/
def refresh (s : Scanner) : Option KeyPlace → Except Fault (Option KeyPlace)
  | none => .ok none
  | some k =>
    if s.isStale k then (if k.required then .error (s.missingColon k) else .ok none)
    else .ok (some k)

/-- Gives up the key places that are stale, outermost first. -/
def dropStale (s : Scanner) : Except Fault Scanner := do
  let outer ← s.refresh s.outerKey
  let inner ← s.flowKeys.reverse.mapM s.refresh
  return { s with outerKey := outer, flowKeys := inner.reverse }

/-- Opens a block at a column further right than the present one. -/
def openBlock (s : Scanner) (column : Nat) (place : Scanner → Placed → Scanner) (t : Token)
    (m : Mark) : Scanner :=
  if s.inFlow || column < s.margin then s
  else { place s (.point t m) with blocks := column :: s.blocks }

/-- Closes the open blocks in columns that do not satisfy the test. -/
def closeBlocks (s : Scanner) (stays : Nat → Bool) : Scanner :=
  if s.inFlow then s
  else
    let closed := s.blocks.takeWhile fun c => !stays c
    { s with
      blocks := s.blocks.dropWhile fun c => !stays c
      pending := s.pending ++ closed.map fun _ => .point .blockEnd s.mark }

/-- Passes over `n` characters. -/
def advance (s : Scanner) (n : Nat) : Scanner := { s with source := s.source.drop n }

/-- Passes over white space, comments and line ends. A tab counts as white space only where
no key may begin. -/
def skipGapFrom : Bool → Bool → Bool → Source → Bool × Source
  | _, allowed, _, [] => (allowed, [])
  | flow, allowed, inComment, x :: rest =>
    let c := x.char
    if isBreak c then skipGapFrom flow (allowed || !flow) false rest
    else if inComment then
      if c == endChar then (allowed, x :: rest) else skipGapFrom flow allowed true rest
    else if c == '\uFEFF' && x.mark.column == 0 then skipGapFrom flow allowed false rest
    else if c == ' ' || (c == '\t' && (flow || !allowed)) then
      skipGapFrom flow allowed false rest
    else if c == '#' then skipGapFrom flow allowed true rest
    else (allowed, x :: rest)

/-- Passes over what stands before the next token. -/
def skipGap (s : Scanner) : Scanner :=
  let (allowed, source) := skipGapFrom s.inFlow s.keyAllowed false s.source
  { s with keyAllowed := allowed, source := source }

/-! ## One kind of token each -/

/-- The end of the text, which counts as the start of a line. -/
def atEnd (s : Scanner) : Except Fault Scanner := do
  let m := s.mark
  let m := if m.column = 0 then m else ⟨m.index, m.line + 1, 0⟩
  let s := { s with source := [⟨endChar, m⟩] }
  let s ← (s.closeBlocks fun _ => false).dropKey
  return { s.push (.point .streamEnd m) with keyAllowed := false }

/-- A directive. -/
def directive (s : Scanner) : Except Fault Scanner := do
  let s ← (s.closeBlocks fun _ => false).dropKey
  let (t, rest) ← scanDirective s.source
  return { s.push t with keyAllowed := false, source := rest }

/-- The mark that opens or closes a document. -/
def documentMark (s : Scanner) (t : Token) : Except Fault Scanner := do
  let s ← (s.closeBlocks fun _ => false).dropKey
  return { (s.push (.point t s.mark)).advance 3 with keyAllowed := false }

/-- An opening bracket. -/
def flowOpen (s : Scanner) (t : Token) : Except Fault Scanner := do
  let s ← s.openKey
  return { (s.push (.single t s.mark)).advance 1 with
    flowKeys := none :: s.flowKeys, keyAllowed := true }

/-- A closing bracket. -/
def flowClose (s : Scanner) (t : Token) : Except Fault Scanner := do
  let s ← s.dropKey
  return { (s.push (.single t s.mark)).advance 1 with
    flowKeys := s.flowKeys.drop 1, keyAllowed := false }

/-- A comma between brackets. -/
def flowEntry (s : Scanner) : Except Fault Scanner := do
  let s ← s.dropKey
  return { (s.push (.single .flowEntry s.mark)).advance 1 with keyAllowed := true }

/-- The dash of a block sequence. -/
def blockEntry (s : Scanner) : Except Fault Scanner := do
  if !s.inFlow && !s.keyAllowed then throw (.bare .entryNotAllowed s.mark)
  let s ← (s.openBlock s.mark.column push .blockSequenceStart s.mark).dropKey
  return { (s.push (.single .blockEntry s.mark)).advance 1 with keyAllowed := true }

/-- The question mark before a key. -/
def key (s : Scanner) : Except Fault Scanner := do
  if !s.inFlow && !s.keyAllowed then throw (.bare .keyNotAllowed s.mark)
  let s ← (s.openBlock s.mark.column push .blockMappingStart s.mark).dropKey
  return { (s.push (.single .key s.mark)).advance 1 with keyAllowed := !s.inFlow }

/-- The colon before a value. It settles an open key place. -/
def value (s : Scanner) : Except Fault Scanner :=
  match s.keyPlace with
  | some k =>
    let s := s.pushAt k.ordinal (.point .key k.mark)
    let s := s.openBlock k.mark.column (·.pushAt k.ordinal) .blockMappingStart k.mark
    let s := s.setKeyPlace none
    .ok { (s.push (.single .value s.mark)).advance 1 with keyAllowed := false }
  | none =>
    if !s.inFlow && !s.keyAllowed then .error (.bare .valueNotAllowed s.mark)
    else
      let s := s.openBlock s.mark.column push .blockMappingStart s.mark
      .ok { (s.push (.single .value s.mark)).advance 1 with keyAllowed := !s.inFlow }

/-- A property of a node or an alias: it may begin a key. -/
def property (s : Scanner) (read : Source → Except Fault (Placed × Source)) :
    Except Fault Scanner := do
  let s ← s.openKey
  let (t, rest) ← read s.source
  return { s.push t with keyAllowed := false, source := rest }

/-- A block scalar: it cannot be a key. -/
def blockScalar (s : Scanner) (folded : Bool) : Except Fault Scanner := do
  let s ← s.dropKey
  let r ← scanBlock folded s.margin s.source
  let style := if folded then Style.folded else .literal
  return { s.push (.point (.scalar style r.text) s.mark) with keyAllowed := true, source := r.rest }

/-- A quoted scalar: it may be a key. -/
def quotedScalar (s : Scanner) : Except Fault Scanner := do
  let s ← s.openKey
  let r ← scanQuoted s.source
  let style := if Source.char s.source == '"' then Style.double else .single
  let s := s.push (.point (.scalar style r.text) s.mark)
  return { s with keyAllowed := false, source := r.rest }

/-- A plain scalar: it may be a key. -/
def plainScalar (s : Scanner) : Except Fault Scanner := do
  let s ← s.openKey
  let r ← scanPlain s.inFlow s.margin s.source
  return { s.push (.point (.scalar .plain r.text) s.mark) with
    keyAllowed := r.newLine, source := r.rest }

/-- Whether a plain scalar can begin with `c`, the character `next` being after it. -/
def startsPlain (flow : Bool) (c next : Char) : Bool :=
  let indicator := c == '-' || c == '?' || c == ':' || isFlowIndicator c || c == '#' ||
    c == '&' || c == '*' || c == '!' || c == '|' || c == '>' || c == '\'' || c == '"' ||
    c == '%' || c == '@' || c == '\x60'
  (!isGap c && !indicator) || (c == '-' && !isWhite next) ||
    (!flow && (c == '?' || c == ':') && !isGap next)

/-- Comes to the next token, and gives up the key places that are stale there. -/
def approach (s : Scanner) : Except Fault Scanner := s.skipGap.dropStale

/-- Reads the token that the next character begins. -/
def readToken (s : Scanner) : Except Fault Scanner :=
  let c := Source.char s.source
  let next := Source.charAt s.source 1
  let flow := s.inFlow
  if c == endChar then s.atEnd
  else if s.mark.column == 0 && c == '%' then s.directive
  else if Source.startsDocumentMark s.source '-' then s.documentMark .documentStart
  else if Source.startsDocumentMark s.source '.' then s.documentMark .documentEnd
  else if c == '[' then s.flowOpen .flowSequenceStart
  else if c == '\x7b' then s.flowOpen .flowMappingStart
  else if c == ']' then s.flowClose .flowSequenceEnd
  else if c == '\x7d' then s.flowClose .flowMappingEnd
  else if c == ',' then s.flowEntry
  else if c == '-' && isGap next then s.blockEntry
  else if c == '?' && (flow || isGap next) then s.key
  else if c == ':' && (flow || isGap next) then s.value
  else if c == '*' then s.property (scanName true)
  else if c == '&' then s.property (scanName false)
  else if c == '!' then s.property (scanTag flow)
  else if c == '|' && !flow then s.blockScalar false
  else if c == '>' && !flow then s.blockScalar true
  else if c == '\'' || c == '"' then s.quotedScalar
  else if startsPlain flow c next then s.plainScalar
  else throw (.inside .nextToken s.mark .tokenStart s.mark)

/-- Reads the token at the next character, after the ends of the blocks that are further right. -/
def take (s : Scanner) : Except Fault Scanner :=
  (s.closeBlocks fun c => c ≤ s.mark.column).readToken

/-- Reads the next token. -/
def fetch (s : Scanner) : Except Fault Scanner := s.approach >>= take

/-! ## All tokens -/

/-- How many of the tokens held back are settled: those before the first key place. -/
def settled (s : Scanner) : Nat :=
  let places := (s.outerKey :: s.flowKeys).filterMap id
  places.foldl (fun n k => min n (k.ordinal - s.released)) s.pending.length

/-- Releases the tokens that are settled. -/
def release (s : Scanner) : List Placed × Scanner :=
  let n := s.settled
  (s.pending.take n, { s with pending := s.pending.drop n, released := s.released + n })

end Scanner

/-- The tokens of a text. They end with `streamEnd` unless a fault ends them. -/
structure Tokens where
  list : List Placed
  fault : Option Fault

/-- Whether the end of what can be read is the end of a fault. -/
def Fault.isAtIndex (f : Fault) (index : Nat) : Bool :=
  match f with
  | .malformed _ m _ => m.index == index
  | _ => false

/-- Reads tokens until the end or a fault. `cut` is the fault that stands where the source
ends, if what follows there cannot be read, and `size` is the index of that place. -/
def scanFrom (cut : Option Fault) (size : Nat) : Nat → Scanner → Tokens
  | 0, _ => ⟨[], cut⟩
  | fuel + 1, s =>
    match (s.fetch >>= Scanner.dropStale) with
    | .error f =>
      match cut with
      | some g => ⟨[], some (if f.isAtIndex size then g else f)⟩
      | none => ⟨[], some f⟩
    | .ok s' =>
      match cut, s'.source with
      | some g, [_] => ⟨[], some g⟩
      | _, _ =>
        let (tokens, s'') := s'.release
        if tokens.any fun t => t.token == .streamEnd then ⟨tokens, none⟩
        else
          let rest := scanFrom cut size fuel s''
          ⟨tokens ++ rest.list, rest.fault⟩

/-- The tokens of a text. Each step reads a character or the end. -/
def scan (text : String) : Tokens :=
  let r := readable text.toList
  let source := locate {} r.chars
  let size := (String.ofList r.chars).utf8ByteSize
  scanFrom (r.control.map .control) size (source.length + 1) { source := source }

end Provision.Yaml
