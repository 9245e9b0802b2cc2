import Provision.Regex

/-!
# Reading regular expressions

Regular expressions come in two ways of writing: in the basic one parentheses, braces and bars
have their meaning after a backslash, in the extended one without.

> `Regex.read`: the expression that a text spells.
-/

namespace Provision.Regex

/-- What is wrong with an expression. -/
inductive Fault
  | bracket | openParenthesis | closingParenthesis | brace | braceContent | backslash
  | backReference | characterClass | collation | rangeEnd | preceding | pattern | tooBig
deriving DecidableEq, Repr

/-- The wording of what is wrong. -/
def Fault.message : Fault → String
  | bracket => "Unmatched [, [^, [:, [., or [="
  | openParenthesis => "Unmatched ( or \\("
  | closingParenthesis => "Unmatched ) or \\)"
  | brace => "Unmatched \\\x7b"
  | braceContent => "Invalid content of \\\x7b\\\x7d"
  | backslash => "Trailing backslash"
  | backReference => "Invalid back reference"
  | characterClass => "Invalid character class name"
  | collation => "Invalid collation character"
  | rangeEnd => "Invalid range end"
  | preceding => "Invalid preceding regular expression"
  | pattern => "Invalid regular expression"
  | tooBig => "Regular expression too big"

/-! ## Sets of characters -/

/-- The ranges of a class of characters. -/
def classRanges? (name : String) : Option (List (Char × Char)) :=
  match name with
  | "alpha" => some [('a', 'z'), ('A', 'Z')]
  | "digit" => some [('0', '9')]
  | "alnum" => some [('a', 'z'), ('A', 'Z'), ('0', '9')]
  | "upper" => some [('A', 'Z')]
  | "lower" => some [('a', 'z')]
  | "space" => some [(' ', ' '), ('\t', '\x0d')]
  | "blank" => some [(' ', ' '), ('\t', '\t')]
  | "punct" => some [('!', '/'), (':', '@'), ('[', '\x60'), ('\x7b', '~')]
  | "print" => some [(' ', '~')]
  | "graph" => some [('!', '~')]
  | "cntrl" => some [('\x00', '\x1f'), ('\x7f', '\x7f')]
  | "xdigit" => some [('0', '9'), ('a', 'f'), ('A', 'F')]
  | _ => none

/-- The ranges between brackets, after a possible sign of negation, and what comes after them. A
closing bracket in front of all others counts as itself. -/
def bracketRanges : Nat → Bool → List Char → Except Fault (List (Char × Char) × List Char)
  | 0, _, _ | _, _, [] => .error .bracket
  | fuel + 1, isFirst, c :: rest =>
    if c == ']' && !isFirst then .ok ([], rest)
    else match c, rest with
      | '[', ':' :: rest =>
        let name := rest.takeWhile (· != ':')
        match rest.drop name.length with
        | ':' :: ']' :: after =>
          match classRanges? (String.ofList name) with
          | none => .error .characterClass
          | some rs => (bracketRanges fuel false after).map fun (more, rest) => (rs ++ more, rest)
        | _ => .error .bracket
      | '[', '.' :: d :: '.' :: ']' :: after | '[', '=' :: d :: '=' :: ']' :: after =>
        (bracketRanges fuel false after).map fun (more, rest) => ((d, d) :: more, rest)
      | '[', '.' :: after => .error (if after.contains '.' then .collation else .bracket)
      | '[', '=' :: after => .error (if after.contains '=' then .collation else .bracket)
      | c, '-' :: d :: after =>
        if d == ']' then
          (bracketRanges fuel false ('-' :: d :: after)).map fun (more, rest) =>
            ((c, c) :: more, rest)
        else if d < c then .error .rangeEnd
        else (bracketRanges fuel false after).map fun (more, rest) => ((c, d) :: more, rest)
      | c, rest => (bracketRanges fuel false rest).map fun (more, rest) => ((c, c) :: more, rest)

/-- A set of characters after its opening bracket. -/
def bracket (cs : List Char) : Except Fault (Regex × List Char) :=
  match cs with
  | [] | ['^'] => .error .pattern
  | '^' :: rest => (bracketRanges (rest.length + 1) true rest).map fun (rs, rest) =>
      (one true rs, rest)
  | rest => (bracketRanges (rest.length + 1) true rest).map fun (rs, rest) =>
      (one false rs, rest)

/-! ## Expressions -/

/-- The characters that are left, and how many groups have been opened. -/
structure Reading where
  rest : List Char
  groups : Nat := 0
  /-- How many groups are open. -/
  depth : Nat := 0
  /-- Whether an extended expression may not repeat what is not there. -/
  strict : Bool := false
  /-- The signs of repetition that repeat nothing, the last one first. -/
  idle : List String := []

/-- A reader. -/
abbrev Reader := StateT Reading (Except Fault)

/-- Goes past some characters. -/
def skip (n : Nat) : Reader Unit := modify fun s => { s with rest := s.rest.drop n }

/-- The characters that belong to words. -/
def wordRanges : List (Char × Char) := [('a', 'z'), ('A', 'Z'), ('0', '9'), ('_', '_')]

/-- The white characters. -/
def spaceRanges : List (Char × Char) := [(' ', ' '), ('\t', '\x0d')]

/-- What a backslash and a character mean in both ways of writing. -/
def escaped? (c : Char) : Option Regex :=
  match c with
  | '<' => some (edge .wordStart)
  | '>' => some (edge .wordEnd)
  | 'b' => some (edge .wordEdge)
  | 'B' => some (edge .noWordEdge)
  | '\x60' => some (edge .lineStart)
  | '\'' => some (edge .lineEnd)
  | 'w' => some (one false wordRanges)
  | 'W' => some (one true wordRanges)
  | 's' => some (one false spaceRanges)
  | 'S' => some (one true spaceRanges)
  | _ => none

/-- The most times that something can be repeated by a number. -/
def mostRepeated : Nat := 32767

/-- The numbers between braces, and what comes after them. If there are none, the brace may stand
for itself. -/
def bounds (extended mayStand : Bool) (cs : List Char) :
    Except Fault (Option (Nat × Option Nat × List Char)) :=
  let number (cs : List Char) : Nat := cs.foldl (fun n d => 10 * n + (d.toNat - 48)) 0
  let closed? (cs : List Char) : Option (List Char) :=
    match extended, cs with
    | true, '\x7d' :: rest => some rest
    | false, '\\' :: '\x7d' :: rest => some rest
    | _, _ => none
  let wrong (rest : List Char) : Except Fault (Option (Nat × Option Nat × List Char)) :=
    if mayStand then .ok none
    else .error (if rest.contains ',' || rest.contains '\x7d' then .braceContent else .brace)
  let checked (least : Nat) (most : Option Nat) (after : List Char) :
      Except Fault (Option (Nat × Option Nat × List Char)) :=
    if most.any (· < least) then .error .braceContent
    else if mostRepeated < most.getD least then .error .tooBig
    else .ok (some (least, most, after))
  let low := cs.takeWhile Char.isDigit
  match cs.drop low.length with
  | ',' :: rest =>
    let high := rest.takeWhile Char.isDigit
    match closed? (rest.drop high.length) with
    | some after => checked (number low) (if high.isEmpty then none else some (number high)) after
    | none => wrong (rest.drop high.length)
  | rest => match closed? rest with
    | some after =>
      if low.isEmpty then .error .braceContent
      else checked (number low) (some (number low)) after
    | none => wrong rest

/-- The repetition that comes next: its bounds, and what comes after it. -/
def repetition? (extended strict : Bool) (cs : List Char) :
    Except Fault (Option (Nat × Option Nat × List Char)) :=
  match extended, cs with
  | _, '*' :: rest => .ok (some (0, none, rest))
  | true, '+' :: rest | false, '\\' :: '+' :: rest => .ok (some (1, none, rest))
  | true, '?' :: rest | false, '\\' :: '?' :: rest => .ok (some (0, some 1, rest))
  | true, '\x7b' :: rest => bounds true (!strict) rest
  | false, '\\' :: '\x7b' :: rest => bounds false false rest
  | _, _ => .ok none

/-- Whether a choice or a group ends here. -/
def endsHere (extended : Bool) (depth : Nat) (cs : List Char) : Bool :=
  match extended, cs with
  | _, [] => true
  | true, '|' :: _ | false, '\\' :: '|' :: _ => true
  | true, ')' :: _ => 0 < depth
  | false, '\\' :: ')' :: _ => true
  | _, _ => false

mutual

/-- Choices up to the end of a group. -/
def choices (extended : Bool) : Nat → Reader Regex
  | 0 => return nothing
  | fuel + 1 => do
    let first ← items extended fuel true
    match extended, (← get).rest with
    | true, '|' :: _ =>
      skip 1
      return choice first (← choices extended fuel)
    | false, '\\' :: '|' :: _ =>
      skip 2
      return choice first (← choices extended fuel)
    | _, _ => return first

/-- Expressions side by side; `begins` says that nothing stands before them. -/
def items (extended : Bool) : Nat → Bool → Reader Regex
  | 0, _ => return nothing
  | fuel + 1, begins => do
    let s ← get
    if endsHere extended s.depth s.rest then return nothing
    let first ← item extended fuel begins
    let first ← repetitions extended fuel first
    let stillBegins := match first with
      | edge .lineStart => extended || begins
      | edge _ => extended
      | nothing => extended && begins
      | _ => false
    return sequence first (← items extended fuel stillBegins)

/-- An expression and the repetitions after it. -/
def repetitions (extended : Bool) : Nat → Regex → Reader Regex
  | 0, r => return r
  | fuel + 1, r => do
    let s ← get
    match r with
    | edge _ | nothing => return r
    | _ => pure ()
    match ← repetition? extended s.strict s.rest with
    | some (least, most, rest) =>
      modify fun s => { s with rest := rest }
      repetitions extended fuel (repeated least most r)
    | none => return r

/-- A single expression. -/
def item (extended : Bool) : Nat → Bool → Reader Regex
  | 0, _ => return nothing
  | fuel + 1, begins => do
    let s ← get
    let opened (size : Nat) : Reader Regex := do
      let n := s.groups + 1
      set { s with rest := s.rest.drop size, groups := n, depth := s.depth + 1 }
      let inner ← choices extended fuel
      match extended, (← get).rest with
      | true, ')' :: _ => skip 1
      | false, '\\' :: ')' :: _ => skip 2
      | _, _ => throw .openParenthesis
      modify fun t => { t with depth := s.depth }
      return group n inner
    let exactly (c : Char) (size : Nat) : Reader Regex := do
      skip size
      return one false [(c, c)]
    match s.rest with
    | [] => return nothing
    | '\\' :: [] => throw .backslash
    | '\\' :: '(' :: _ => if extended then exactly '(' 2 else opened 2
    | '\\' :: '\x7b' :: _ =>
      if extended then exactly '\x7b' 2
      else throw .preceding
    | '\\' :: c :: _ =>
      if c.isDigit && c != '0' then
        let n := c.toNat - 48
        if s.groups < n then throw .backReference
        skip 2
        return again n
      match escaped? c with
      | some r =>
        skip 2
        return r
      | none => exactly (if c == 'n' then '\n' else c) 2
    | '.' :: _ =>
      skip 1
      return one true []
    | '[' :: rest =>
      let (r, after) ← bracket rest
      modify fun s => { s with rest := after }
      return r
    | '^' :: _ =>
      if extended || begins then
        skip 1
        return edge .lineStart
      else exactly '^' 1
    | '$' :: rest =>
      if extended || endsHere false s.depth rest then
        skip 1
        return edge .lineEnd
      else exactly '$' 1
    | '(' :: _ => if extended then opened 1 else exactly '(' 1
    | c :: _ =>
      if extended && begins && ['*', '+', '?', '\x7b'].contains c then
        if s.strict then throw .preceding
        match ← repetition? true false s.rest with
        | some (_, _, rest) =>
          let sign := if c == '\x7b' then "\x7b...\x7d" else String.singleton c
          set { s with rest := rest, idle := sign :: s.idle }
          return nothing
        | none => exactly c 1
      else exactly c 1

end

/-- The expression that a text spells, and the signs of repetition in it that repeat nothing. -/
def readNoting (extended strict : Bool) (s : String) : Except Fault (Regex × List String) := do
  let cs := s.toList
  let (r, left) ← (choices extended (8 * cs.length + 8)).run { rest := cs, strict := strict }
  if left.rest.isEmpty then return (r, left.idle.reverse) else throw .closingParenthesis

/-- The expression that a text spells. -/
def read (extended : Bool) (s : String) (strict : Bool := true) : Except Fault Regex :=
  (readNoting extended strict s).map Prod.fst

end Provision.Regex
