import Provision.Yaml.Outline.Scalar

/-!
# Outlines as texts

Block style throughout, two columns a level; only empty collections have brackets. Sequences
below a key stand in the column of the key. A key stands on the line of its value if it is a
short scalar on one line or an empty collection, else after a question mark.

Mirrors the emitter of the YAML library with the settings of the serialiser: no limit on the
width of a line, no flow style but for empty collections.
-/

namespace Provision.Yaml.Outline

/-- Where a node stands: on its own, or after an indicator in a column. -/
inductive Place
  | top
  /-- After the dash of an item. -/
  | item (column : Nat)
  /-- After a question mark, or after a colon on a line of its own. -/
  | mark (column : Nat)
  /-- After a key on the same line. -/
  | key (column : Nat)

namespace Place

/-- The space before a node. -/
def gap : Place → List Char
  | top => []
  | _ => [' ']

/-- The margin of the further lines of a scalar. -/
def margin : Place → Nat
  | top => 2
  | item c | mark c | key c => c + 2

/-- The column of a mapping. -/
def mappingColumn : Place → Nat
  | top => 0
  | item c | mark c | key c => c + 2

/-- The column of a sequence. -/
def sequenceColumn (tagged : Bool) : Place → Nat
  | top => 0
  | item c => c + 2
  | mark c => if tagged then c else c + 2
  | key c => c

/-- Whether the first entry of a collection stands on the same line. -/
def isCompact (tagged : Bool) : Place → Bool
  | key _ => false
  | _ => !tagged

end Place

/-! ## Tags -/

/-- Whether a character stands for itself in a tag. -/
def isTagChar (c : Char) : Bool :=
  isWordChar c || [';', '/', '?', ':', '@', '&', '=', '+', '$', ',', '_', '.', '~', '*', '\'',
    '(', ')', '[', ']'].contains c

/-- Characters of a tag, with escapes for the bytes of all but some. -/
def tagChars (cs : List Char) : List Char :=
  cs.flatMap fun c =>
    if isTagChar c then [c]
    else (Text.Utf8.encode (String.singleton c)).flatMap fun b => '%' :: hexDigits 2 b.toNat

/-- A tag as it is written. -/
def tagText (tag : String) : List Char :=
  match tag.toList with
  | '!' :: c :: rest => '!' :: tagChars (c :: rest)
  | cs => ['!', '<'] ++ tagChars cs ++ ['>']

/-- A tag that may be missing, with the space after it. -/
def tagBefore (tag : Option String) : List Char := tag.elim [] fun t => tagText t ++ [' ']

/-! ## Nodes -/

/-- How many bytes a tag has. -/
def tagSize (tag : Option String) : Nat := tag.elim 0 String.utf8ByteSize

/-- The text of a key that can stand on the line of its value. -/
def simpleKey? : Outline → Option (List Char)
  | .scalar tag style text =>
    if text.toList.any endsLine || 128 < tagSize tag + text.utf8ByteSize then none
    else some (tagBefore tag ++ scalarText 0 style true text.toList)
  | .sequence tag [] => if 128 < tagSize tag then none else some (tagBefore tag ++ ['[', ']'])
  | .mapping tag [] =>
    if 128 < tagSize tag then none else some (tagBefore tag ++ ['\x7b', '\x7d'])
  | _ => none

/-- Entries of a collection: the first one follows what precedes it if it is compact, and
each other one stands on a line of its own. -/
def block (place : Place) (tag : Option String) (column : Nat) (entries : List (List Char)) :
    List Char :=
  let all := entries.flatMap fun e => spaces column ++ e
  if place.isCompact tag.isSome then place.gap ++ all.drop column
  else tag.elim [] (fun t => place.gap ++ tagText t) ++ '\n' :: all

mutual

/-- The text of a node in a place, with the end of its last line. -/
def node (place : Place) : Outline → List Char
  | .scalar tag style text =>
    let cs := text.toList
    place.gap ++ tagBefore tag ++ scalarText place.margin style false cs ++
      (if endsItself style false cs then [] else ['\n'])
  | .sequence tag [] => place.gap ++ tagBefore tag ++ ['[', ']', '\n']
  | .sequence tag (o :: rest) =>
    let column := place.sequenceColumn tag.isSome
    block place tag column (items column (o :: rest))
  | .mapping tag [] => place.gap ++ tagBefore tag ++ ['\x7b', '\x7d', '\n']
  | .mapping tag (e :: rest) =>
    let column := place.mappingColumn
    block place tag column (entries column (e :: rest))

/-- The items of a sequence in a column. -/
def items (column : Nat) : List Outline → List (List Char)
  | [] => []
  | o :: rest => ('-' :: node (.item column) o) :: items column rest

/-- The entries of a mapping in a column. -/
def entries (column : Nat) : List (Outline × Outline) → List (List Char)
  | [] => []
  | (k, v) :: rest =>
    let entry := match simpleKey? k with
      | some key => key ++ ':' :: node (.key column) v
      | none =>
        '?' :: node (.mark column) k ++ spaces column ++ ':' :: node (.mark column) v
    entry :: entries column rest

end

/-- A document of one node. -/
def render (o : Outline) : String := String.ofList (node .top o)

end Provision.Yaml.Outline
