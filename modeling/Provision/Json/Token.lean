import Provision.Yaml.Source

/-!
# Tokens of JSON

A text is cut into marks, words, numbers and strings. A string may be written with half of
a surrogate pair; such a string has no text, which matters only to those who ask for it.

> `skip?`: a value is left out together with all it contains.
-/

namespace Provision.Json

/-- A token. -/
inductive Token
  /-- A bracket, a brace, a colon or a comma. -/
  | mark (c : Char)
  /-- One of `null`, `true` and `false`. -/
  | word (s : String)
  | number
  /-- A string with its text, if it has one. -/
  | string (text : Option String)
deriving DecidableEq, Repr

namespace Token

/-! ## Strings -/

/-- A character of a string, or an escape that stands for half of one. -/
inductive Piece
  | char (c : Char)
  | half (n : Nat)

/-- The piece that a code unit stands for. -/
def piece (n : Nat) : Piece :=
  if 0xD800 ≤ n ∧ n < 0xE000 then .half n else .char (Char.ofNat n)

/-- Joins halves to characters. -/
def join? : List Piece → Option (List Char)
  | [] => some []
  | .char c :: rest => (join? rest).map (c :: ·)
  | .half high :: .half low :: rest =>
    if high < 0xDC00 ∧ 0xDC00 ≤ low then
      let c := Char.ofNat (0x10000 + (high - 0xD800) * 0x400 + (low - 0xDC00))
      (join? rest).map (c :: ·)
    else none
  | .half _ :: _ => none

/-- The character that an escape of one letter stands for. -/
def escape? (c : Char) : Option Char :=
  if c = '"' ∨ c = '\\' ∨ c = '/' then some c
  else if c = 'b' then some '\x08'
  else if c = 'f' then some '\x0c'
  else if c = 'n' then some '\n'
  else if c = 'r' then some '\r'
  else if c = 't' then some '\t'
  else none

/-- Reads a string after its opening quote; what follows the closing one is left. -/
def pieces? : List Char → Option (List Piece × List Char)
  | [] => none
  | '"' :: rest => some ([], rest)
  | '\\' :: 'u' :: a :: b :: c :: d :: rest => do
    let digits ← [a, b, c, d].mapM Yaml.hexValue?
    let (ps, rest) ← pieces? rest
    return (piece (digits.foldl (fun n x => 16 * n + x) 0) :: ps, rest)
  | '\\' :: c :: rest => do
    let c ← escape? c
    let (ps, rest) ← pieces? rest
    return (.char c :: ps, rest)
  | c :: rest => do
    if c.toNat < 0x20 then none
    let (ps, rest) ← pieces? rest
    return (.char c :: ps, rest)

/-! ## Numbers -/

/-- What follows one digit or more. -/
def afterDigits? (cs : List Char) : Option (List Char) :=
  if cs.head?.any Char.isDigit then some (cs.dropWhile Char.isDigit) else none

/-- What follows a number. A zero in front is a number of its own. -/
def afterNumber? (cs : List Char) : Option (List Char) := do
  let cs := match cs with | '-' :: rest => rest | cs => cs
  let cs ← match cs with
    | '0' :: rest => some rest
    | cs => afterDigits? cs
  let cs ← match cs with
    | '.' :: rest => afterDigits? rest
    | cs => some cs
  match cs with
  | c :: rest =>
    if c = 'e' ∨ c = 'E' then
      match rest with
      | '+' :: rest | '-' :: rest => afterDigits? rest
      | rest => afterDigits? rest
    else some cs
  | [] => some []

/-! ## Tokens -/

/-- The blanks between tokens. -/
def isBlank (c : Char) : Bool := c = ' ' || c = '\t' || c = '\n' || c = '\r'

/-- The first token of a text that begins with none of the blanks. -/
def first? : List Char → Option (Token × List Char)
  | 'n' :: 'u' :: 'l' :: 'l' :: rest => some (.word "null", rest)
  | 't' :: 'r' :: 'u' :: 'e' :: rest => some (.word "true", rest)
  | 'f' :: 'a' :: 'l' :: 's' :: 'e' :: rest => some (.word "false", rest)
  | '"' :: rest => (pieces? rest).map fun (ps, rest) =>
      (.string ((join? ps).map String.ofList), rest)
  | c :: rest =>
    if ['[', ']', '\x7b', '\x7d', ':', ','].contains c then some (.mark c, rest)
    else (afterNumber? (c :: rest)).map fun rest => (.number, rest)
  | [] => none

/-- The tokens of a text, at most `fuel` of them. -/
def scanFrom : Nat → List Char → Option (List Token)
  | 0, cs => if (cs.dropWhile isBlank).isEmpty then some [] else none
  | fuel + 1, cs =>
    let cs := cs.dropWhile isBlank
    if cs.isEmpty then some []
    else do
      let (t, rest) ← first? cs
      return t :: (← scanFrom fuel rest)

/-- The tokens of a text. -/
def scan? (text : String) : Option (List Token) := scanFrom text.length text.toList

/-! ## Values that are left out -/

mutual

/-- What follows the value that a list of tokens begins with. -/
def skip : Nat → List Token → Option (List Token)
  | 0, _ => none
  | _ + 1, .mark '[' :: .mark ']' :: rest => some rest
  | fuel + 1, .mark '[' :: rest => skipItems fuel rest
  | _ + 1, .mark '\x7b' :: .mark '\x7d' :: rest => some rest
  | fuel + 1, .mark '\x7b' :: rest => skipMembers fuel rest
  | _ + 1, .word _ :: rest | _ + 1, .number :: rest | _ + 1, .string _ :: rest => some rest
  | _ + 1, _ => none

/-- What follows an array that has been opened. -/
def skipItems : Nat → List Token → Option (List Token)
  | 0, _ => none
  | fuel + 1, ts =>
    match skip fuel ts with
    | some (.mark ',' :: rest) => skipItems fuel rest
    | some (.mark ']' :: rest) => some rest
    | _ => none

/-- What follows an object that has been opened. -/
def skipMembers : Nat → List Token → Option (List Token)
  | fuel + 1, .string _ :: .mark ':' :: ts =>
    match skip fuel ts with
    | some (.mark ',' :: rest) => skipMembers fuel rest
    | some (.mark '\x7d' :: rest) => some rest
    | _ => none
  | _, _ => none

end

/-- What follows the value that a list of tokens begins with. -/
def skip? (ts : List Token) : Option (List Token) := skip (2 * ts.length + 1) ts

end Token

end Provision.Json
