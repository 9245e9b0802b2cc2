import Provision.Number.Shortest

/-!
# JSON

Data as JSON texts, on one line or indented. Members of an object keep their order.
-/

namespace Provision

/-- A JSON value. Numbers are kept as they are written. -/
inductive Json
  | null
  | bool (b : Bool)
  | number (digits : String)
  | string (s : String)
  | array (items : List Json)
  | object (members : List (String × Json))

namespace Json

/-- Numbers are positional from five zeros after the point up to sixteen places before it;
an exponent always has a sign. Numbers that are not finite are written as null. -/
def numberLayout : Number.Layout :=
  { positional := fun k => -5 < k && k ≤ 16, plusSign := true
    nan := "null", infinity := "null" }

/-- A floating point number. -/
def float (x : Number.Binary64) : Json :=
  if x.isFinite then number (numberLayout.text x) else null

/-- A list of strings. -/
def strings (l : List String) : Json := array (l.map string)

/-- A string that may be absent. -/
def optional (o : Option String) : Json := o.elim null string

/-! ## Strings -/

/-- One character as it stands between double quotes: control characters, the quote and the
backslash are escaped. -/
def escapedChar (c : Char) : List Char :=
  if c = '"' then ['\\', '"']
  else if c = '\\' then ['\\', '\\']
  else if c = '\x08' then ['\\', 'b']
  else if c = '\t' then ['\\', 't']
  else if c = '\n' then ['\\', 'n']
  else if c = '\x0c' then ['\\', 'f']
  else if c = '\r' then ['\\', 'r']
  else if c.toNat < 0x20 then
    let digits := Nat.toDigits 16 c.toNat
    ['\\', 'u'] ++ List.replicate (4 - digits.length) '0' ++ digits
  else [c]

/-- A string between double quotes. -/
def quoted (s : String) : String :=
  String.ofList ('"' :: s.toList.flatMap escapedChar ++ ['"'])

/-! ## Texts -/

mutual

/-- A value on one line, without blanks. -/
def compact : Json → String
  | null => "null"
  | bool b => if b then "true" else "false"
  | number digits => digits
  | string s => quoted s
  | array items => "[" ++ ",".intercalate (compactItems items) ++ "]"
  | object members => "\x7b" ++ ",".intercalate (compactMembers members) ++ "\x7d"

/-- The items of an array. -/
def compactItems : List Json → List String
  | [] => []
  | v :: rest => compact v :: compactItems rest

/-- The members of an object. -/
def compactMembers : List (String × Json) → List String
  | [] => []
  | (k, v) :: rest => (quoted k ++ ":" ++ compact v) :: compactMembers rest

end

/-- The margin of a line at a depth. -/
def margin (depth : Nat) : String := String.ofList (List.replicate (2 * depth) ' ')

/-- Lines between brackets that stand at a depth. -/
def bracketed (depth : Nat) (first last : String) (lines : List String) : String :=
  if lines.isEmpty then first ++ last
  else first ++ "\n" ++ ",\n".intercalate lines ++ "\n" ++ margin depth ++ last

mutual

/-- A value with each item and member on a line of its own. -/
def indented (depth : Nat) : Json → String
  | null => "null"
  | bool b => if b then "true" else "false"
  | number digits => digits
  | string s => quoted s
  | array items => bracketed depth "[" "]" (indentedItems (depth + 1) items)
  | object members => bracketed depth "\x7b" "\x7d" (indentedMembers (depth + 1) members)

/-- The items of an array, one a line. -/
def indentedItems (depth : Nat) : List Json → List String
  | [] => []
  | v :: rest => (margin depth ++ indented depth v) :: indentedItems depth rest

/-- The members of an object, one a line. -/
def indentedMembers (depth : Nat) : List (String × Json) → List String
  | [] => []
  | (k, v) :: rest =>
    (margin depth ++ quoted k ++ ": " ++ indented depth v) :: indentedMembers depth rest

end

/-- A value on lines of its own. -/
def pretty (v : Json) : String := indented 0 v

end Json

end Provision
