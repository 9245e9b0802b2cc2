/-!
# Regular expressions

What an expression matches in a text: of all matches the leftmost ones, and of those the longest
one. Where parts of an expression can share a text in several ways, a part takes as much as it
can before the parts after it.
-/

namespace Provision

/-- What an expression can ask of a place between two characters. -/
inductive Regex.Edge
  | lineStart | lineEnd | wordStart | wordEnd | wordEdge | noWordEdge
deriving DecidableEq, Repr

/-- A regular expression. -/
inductive Regex
  | nothing
  /-- A character in one of some ranges, or in none of them. -/
  | one (negated : Bool) (ranges : List (Char × Char))
  | edge (e : Regex.Edge)
  | sequence (a b : Regex)
  | choice (a b : Regex)
  /-- What it matches can be matched again, and replaced. -/
  | group (number : Nat) (inner : Regex)
  | repeated (least : Nat) (most : Option Nat) (inner : Regex)
  /-- The text of a group once more. -/
  | again (number : Nat)
deriving Repr

namespace Regex

/-- A text in which expressions are looked for. -/
structure Subject where
  chars : Array Char
  ignoresCase : Bool := false
  /-- Whether lines inside the text have starts and ends. -/
  hasLines : Bool := false

/-- Where a match has come to, and what the groups have matched, the last one first. -/
structure Progress where
  place : Nat
  groups : List (Nat × Nat × Nat) := []

/-- Whether a character belongs to a word. -/
def isWordChar (c : Char) : Bool := c.isAlphanum || c == '_'

/-- Whether a character is in one of some ranges. -/
def inRanges (ranges : List (Char × Char)) (c : Char) : Bool :=
  ranges.any fun r => r.1 ≤ c && c ≤ r.2

namespace Subject

/-- Whether the ranges hold a character of the text. -/
def takes (t : Subject) (negated : Bool) (ranges : List (Char × Char)) (c : Char) : Bool :=
  (inRanges ranges c ||
    (t.ignoresCase && (inRanges ranges c.toLower || inRanges ranges c.toUpper))) != negated

/-- Whether a character of a word stands at a place. -/
def isWordAt (t : Subject) (i : Nat) : Bool := t.chars[i]?.any isWordChar

/-- Whether a place is an edge of a kind. -/
def isEdge (t : Subject) (e : Edge) (i : Nat) : Bool :=
  let before := i != 0 && t.isWordAt (i - 1)
  let after := t.isWordAt i
  match e with
  | .lineStart => i == 0 || (t.hasLines && t.chars[i - 1]? == some '\n')
  | .lineEnd => i == t.chars.size || (t.hasLines && t.chars[i]? == some '\n')
  | .wordStart => !before && after
  | .wordEnd => before && !after
  | .wordEdge => before != after
  | .noWordEdge => before == after

/-- Whether two parts of the text are the same. -/
def sameParts (t : Subject) (i j count : Nat) : Bool :=
  (List.range count).all fun k =>
    match t.chars[i + k]?, t.chars[j + k]? with
    | some a, some b => a == b || (t.ignoresCase && a.toLower == b.toLower)
    | _, _ => false

end Subject

/-- Keeps the first progress for each place, those that have come further in front. -/
def longestFirst (found : List Progress) : List Progress :=
  let unique := found.foldl (fun kept p =>
    if kept.any fun q => q.place == p.place then kept else p :: kept) []
  unique.reverse.mergeSort fun p q => q.place ≤ p.place

/-- Goes on from each progress as often as may be, the number of times being bounded. What has
been reached after enough times is kept. -/
def iterate (step : Progress → List Progress) :
    Nat → Nat → Option Nat → List Progress → List Progress → List Progress
  | 0, _, _, reached, _ => reached
  | fuel + 1, least, most, reached, current =>
    let reached := if least = 0 then reached ++ current else reached
    if most = some 0 || current.isEmpty then reached
    else
      let next := longestFirst (current.flatMap step)
      let next := if least = 0 then
          next.filter fun p => !reached.any fun q => q.place == p.place
        else next
      iterate step fuel (least - 1) (most.map (· - 1)) reached next

/-- All ways to match an expression from a place on. -/
def follow (t : Subject) : Regex → Progress → List Progress
  | nothing, p => [p]
  | one negated ranges, p =>
    match t.chars[p.place]? with
    | some c => if t.takes negated ranges c then [{ p with place := p.place + 1 }] else []
    | none => []
  | edge e, p => if t.isEdge e p.place then [p] else []
  | sequence a b, p => longestFirst ((follow t a p).flatMap (follow t b))
  | choice a b, p => longestFirst (follow t a p ++ follow t b p)
  | group n inner, p =>
    (follow t inner p).map fun q => { q with groups := (n, p.place, q.place) :: q.groups }
  | repeated least most inner, p =>
    longestFirst (iterate (follow t inner) (t.chars.size + least + 2) least most [] [p])
  | again n, p =>
    match p.groups.find? fun g => g.1 == n with
    | some (_, i, j) =>
      if t.sameParts i p.place (j - i) then [{ p with place := p.place + (j - i) }] else []
    | none => []

/-- A match: where it begins and ends, and what the groups have matched. -/
structure Match where
  start : Nat
  stop : Nat
  groups : List (Nat × Nat × Nat) := []

/-- The longest match from a place on. -/
def matchAt? (r : Regex) (t : Subject) (i : Nat) : Option Match :=
  (follow t r ⟨i, []⟩).head?.map fun p => ⟨i, p.place, p.groups⟩

/-- The first match that begins at a place or after it. -/
def find? (r : Regex) (t : Subject) (i : Nat) : Option Match :=
  (List.range (t.chars.size + 1 - i)).findSome? fun k => r.matchAt? t (i + k)

/-- What a group has matched, group 0 being the whole match. -/
def Match.part (m : Match) (t : Subject) (n : Nat) : Option String :=
  let text (i j : Nat) : String := String.ofList (t.chars.extract i j).toList
  if n = 0 then some (text m.start m.stop)
  else (m.groups.find? fun g => g.1 == n).map fun g => text g.2.1 g.2.2

/-- A text to look for expressions in. -/
def Subject.ofString (s : String) (ignoresCase : Bool) : Subject :=
  { chars := s.toList.toArray, ignoresCase := ignoresCase }

/-- An expression that matches a text alone. -/
def ofText (s : String) : Regex :=
  s.toList.foldr (fun c r => sequence (one false [(c, c)]) r) nothing

end Regex

end Provision
