import Provision.Yaml.Mark

/-!
# Source texts

A text as its characters with their marks. The line breaks `CR LF`, `CR`, `LF` and `NEL`
all become `LF`, and the last entry is a `NUL` that stands for the end of the text; no
other `NUL` can occur, because control characters are refused before.

Mirrors the reader of the YAML library. Breaks are made uniform when a text is located and not
while it is scanned.
-/

namespace Provision.Yaml

/-- A character and where it stands. -/
structure Located where
  char : Char
  mark : Mark
deriving DecidableEq, Repr

/-- The rest of a text. -/
abbrev Source := List Located

/-! ## Classes of characters -/

/-- The character that stands for the end of the text. -/
def endChar : Char := '\x00'

/-- Whether a character ends a line. -/
def isBreak (c : Char) : Bool := c == '\n' || c == '\u2028' || c == '\u2029'

/-- Whether a character is a space or a tab. -/
def isWhite (c : Char) : Bool := c == ' ' || c == '\t'

/-- Whether a line stops at a character. -/
def isStop (c : Char) : Bool := isBreak c || c == endChar

/-- Whether a word stops at a character. -/
def isGap (c : Char) : Bool := isWhite c || isStop c

/-- Letters, digits, `-` and `_`: the characters of names. -/
def isWordChar (c : Char) : Bool := c.isAlphanum || c == '-' || c == '_'

/-- The value of a hexadecimal digit. -/
def hexValue? (c : Char) : Option Nat :=
  if c.isDigit then some (c.toNat - '0'.toNat)
  else if 'a' ≤ c ∧ c ≤ 'f' then some (c.toNat - 'a'.toNat + 10)
  else if 'A' ≤ c ∧ c ≤ 'F' then some (c.toNat - 'A'.toNat + 10)
  else none

/-! ## Placing characters -/

/-- Places characters from a mark on. -/
def locate (m : Mark) : List Char → Source
  | [] => [⟨endChar, m⟩]
  | '\r' :: '\n' :: rest => ⟨'\n', m⟩ :: locate (m.nextLine 2) rest
  | c :: rest =>
    if c == '\r' || c == '\n' || c == '\x85' then
      ⟨'\n', m⟩ :: locate (m.nextLine c.utf8Size) rest
    else if isBreak c then ⟨c, m⟩ :: locate (m.nextLine c.utf8Size) rest
    else ⟨c, m⟩ :: locate (m.next c) rest

namespace Source

/-- The next character. -/
def char (s : Source) : Char := match s with | [] => endChar | x :: _ => x.char

/-- The mark of the next character. -/
def mark (s : Source) : Mark := match s with | [] => {} | x :: _ => x.mark

/-- The column of the next character. -/
def column (s : Source) : Nat := (mark s).column

/-- The character after `n` others. -/
def charAt (s : Source) (n : Nat) : Char := char (s.drop n)

/-- The longest run of characters with a property, and the rest. -/
def run (p : Char → Bool) : Source → List Char × Source
  | [] => ([], [])
  | x :: rest =>
    if p x.char then
      let (cs, r) := run p rest
      (x.char :: cs, r)
    else ([], x :: rest)

/-- The rest after the longest run of characters with a property. -/
def skip (p : Char → Bool) (s : Source) : Source := (run p s).2

/-- Whether three equal characters and a gap stand at the start of a line. -/
def startsDocumentMark (s : Source) (c : Char) : Bool :=
  column s == 0 && char s == c && charAt s 1 == c && charAt s 2 == c && isGap (charAt s 3)

/-- Whether a line starts with the mark that opens or closes a document. -/
def atDocumentMark (s : Source) : Bool := startsDocumentMark s '-' || startsDocumentMark s '.'

end Source

/-! ## Control characters -/

/-- Whether a character may occur in a text. -/
def isAllowed (c : Char) : Bool :=
  let n := c.toNat
  n == 0x09 || n == 0x0A || n == 0x0D || (0x20 ≤ n && n ≤ 0x7E) || n == 0x85 ||
    (0xA0 ≤ n && n ≤ 0xD7FF) || (0xE000 ≤ n && n ≤ 0xFFFD) || 0x10000 ≤ n

/-- How many bytes a text is read at a time. -/
def blockSize : Nat := 16384

/-- What can be read of a text: all its characters, or those of the blocks before the one
with the first control character, and the offset of that. -/
structure Readable where
  chars : List Char
  control : Option Nat

/-- Walks over the characters. `done` are the characters of finished blocks, `block` those of
the present one, both reversed; `offset` is the number of bytes before the next character. -/
def readableFrom (done block : List Char) (offset blockEnd : Nat) : List Char → Readable
  | [] => ⟨(block ++ done).reverse, none⟩
  | c :: rest =>
    let after := offset + c.utf8Size
    let (done, block, blockEnd) :=
      if blockEnd < after then (block ++ done, [], offset + blockSize) else (done, block, blockEnd)
    if isAllowed c then readableFrom done (c :: block) after blockEnd rest
    else ⟨done.reverse, some offset⟩

/-- What can be read of a text. -/
def readable (cs : List Char) : Readable := readableFrom [] [] 0 blockSize cs

end Provision.Yaml
