import Provision.Yaml.Outline

/-!
# Written scalars

A scalar is written in the style that is wanted if that style can hold it: plain text must
not look like structure, quoted text must not lose blanks around its line breaks, and text
with characters that are not safe is written between double quotes with escapes.

> `settle_double`: text that is not safe is always written between double quotes.

Mirrors the analysis of a scalar in the emitter and the four ways in which it writes one.
-/

namespace Provision.Yaml.Outline

/-! ## What a text contains -/

/-- Whether a character ends a line for a reader. -/
def endsLine (c : Char) : Bool := isBreak c || c == '\r' || c == '\x85'

/-- Whether a character separates words for a reader. -/
def separates (c : Char) : Bool := c == ' ' || c == '\t' || endsLine c || c == '\x00'

/-- Whether a character can be written as it is. -/
def isSafe (c : Char) : Bool :=
  let n := c.toNat
  n == 0x0A || (0x20 ≤ n && n ≤ 0x7E) || (0xA0 ≤ n && n ≤ 0xD7FF) ||
    (0xE000 ≤ n && n ≤ 0xFFFD && n != 0xFEFF) || 0x10000 ≤ n

/-- Whether two neighbours have the given properties. -/
def hasPair (p q : Char → Bool) : List Char → Bool
  | a :: b :: rest => (p a && q b) || hasPair p q (b :: rest)
  | _ => false

/-- Whether a text has a space right before the end of a line, or an unsafe character. -/
def needsEscapes (cs : List Char) : Bool :=
  cs.any (fun c => !isSafe c) || hasPair (· == ' ') endsLine cs

/-- Whether the end of a text or a separator comes next. -/
def separatedNext (rest : List Char) : Bool := rest.head?.all separates

/-- The characters that plain text must not begin with. -/
def indicators : List Char :=
  ['#', ',', '[', ']', '\x7b', '\x7d', '&', '*', '!', '|', '>', '\'', '"', '%', '@', '\x60']

/-- Whether the text after a character has a colon before a separator or a number sign
after one. -/
def hasInnerMark : Char → List Char → Bool
  | _, [] => false
  | before, c :: rest =>
    (c == ':' && separatedNext rest) || (c == '#' && separates before) || hasInnerMark c rest

/-- Whether plain text would look like structure. -/
def looksStructural (cs : List Char) : Bool :=
  ['-', '-', '-'].isPrefixOf cs || ['.', '.', '.'].isPrefixOf cs || match cs with
    | [] => false
    | c :: rest =>
      indicators.contains c || (['?', ':', '-'].contains c && separatedNext rest) ||
        hasInnerMark c rest

/-! ## The style that can hold a text -/

/-- Whether plain text can hold a text. -/
def plainHolds (cs : List Char) : Bool :=
  !(needsEscapes cs || cs.any endsLine || cs.head? == some ' ' || cs.getLast? == some ' ' ||
    looksStructural cs)

/-- Whether single quotes can hold a text. -/
def singleHolds (cs : List Char) : Bool := !(needsEscapes cs || hasPair endsLine (· == ' ') cs)

/-- Whether a literal block can hold a text. -/
def literalHolds (cs : List Char) : Bool :=
  !(cs.isEmpty || needsEscapes cs || cs.getLast? == some ' ')

/-- The style of a text for which another one is wanted. Keys on one line with their values
are neither blocks nor empty. -/
def settle (wanted : Style) (isKey : Bool) (cs : List Char) : Style :=
  let quoted : Style := if singleHolds cs then .single else .double
  match wanted with
  | .plain => if plainHolds cs && !(isKey && cs.isEmpty) then .plain else quoted
  | .single => quoted
  | .literal | .folded => if literalHolds cs && !isKey then .literal else .double
  | .double => .double

/-- A text with a character that needs an escape is put in double quotes, whatever was wanted. -/
theorem settle_double {cs : List Char} (h : needsEscapes cs = true) (wanted : Style)
    (isKey : Bool) : settle wanted isKey cs = .double := by
  cases wanted <;> simp [settle, plainHolds, singleHolds, literalHolds, h]

/-! ## The text in a style -/

/-- A number in base sixteen with at least `width` digits, upper case. -/
def hexDigits (width n : Nat) : List Char :=
  let ds := (Nat.toDigits 16 n).map Char.toUpper
  List.replicate (width - ds.length) '0' ++ ds

/-- One character between double quotes. -/
def escaped (c : Char) : List Char :=
  if isSafe c && !endsLine c && c != '"' && c != '\\' then [c]
  else match c with
    | '\x00' => ['\\', '0']
    | '\x07' => ['\\', 'a']
    | '\x08' => ['\\', 'b']
    | '\t' => ['\\', 't']
    | '\n' => ['\\', 'n']
    | '\x0b' => ['\\', 'v']
    | '\x0c' => ['\\', 'f']
    | '\r' => ['\\', 'r']
    | '\x1b' => ['\\', 'e']
    | '"' => ['\\', '"']
    | '\\' => ['\\', '\\']
    | '\x85' => ['\\', 'N']
    | '\u2028' => ['\\', 'L']
    | '\u2029' => ['\\', 'P']
    | c =>
      let n := c.toNat
      if n ≤ 0xFF then ['\\', 'x'] ++ hexDigits 2 n
      else if n ≤ 0xFFFF then ['\\', 'u'] ++ hexDigits 4 n
      else ['\\', 'U'] ++ hexDigits 8 n

/-- Spaces. -/
def spaces (n : Nat) : List Char := List.replicate n ' '

/-- Lines between single quotes. `pending` says that a line has just ended, so that the next
one needs its margin; a first line that ends is followed by an empty one. -/
def singleBody (margin : Nat) : (pending : Bool) → List Char → List Char
  | pending, [] => if pending then spaces margin else []
  | pending, c :: rest =>
    if endsLine c then
      (if c == '\n' && !pending then ['\n'] else []) ++ c :: singleBody margin true rest
    else
      (if pending then spaces margin else []) ++
        (if c == '\'' then ['\'', '\''] else [c]) ++ singleBody margin false rest

/-- The lines of a literal block, each that is not empty with its margin. -/
def literalBody (margin : Nat) : (fresh : Bool) → List Char → List Char
  | _, [] => []
  | fresh, c :: rest =>
    if endsLine c then c :: literalBody margin true rest
    else (if fresh then spaces margin else []) ++ c :: literalBody margin false rest

/-- The head of a literal block: how deep it is where its first line does not show it, and
whether the line break at its end, or more of them, belong to it. -/
def literalHead (cs : List Char) : List Char :=
  let depth := if cs.head?.any fun c => c == ' ' || endsLine c then ['2'] else []
  let ending := match cs.reverse with
    | [] => ['-']
    | c :: before =>
      if !endsLine c then ['-'] else if before.head?.all endsLine then ['+'] else []
  '|' :: depth ++ ending

/-- The text of a scalar with the end of its last line. Lines after the first have a margin. -/
def scalarText (margin : Nat) (wanted : Style) (isKey : Bool) (cs : List Char) : List Char :=
  match settle wanted isKey cs with
  | .plain => cs
  | .single => '\'' :: singleBody margin false cs ++ ['\'']
  | .double => '"' :: cs.flatMap escaped ++ ['"']
  | .literal | .folded => literalHead cs ++ '\n' :: literalBody margin true cs

/-- Whether the text of a scalar ends its last line itself. -/
def endsItself (wanted : Style) (isKey : Bool) (cs : List Char) : Bool :=
  settle wanted isKey cs == .literal && cs.getLast?.any endsLine

end Provision.Yaml.Outline
