import Provision.Regex.Read

/-!
# Patterns

What a text with `*`, `?` and brackets stands for. The characters of such a text bear a flag
that says whether they may have a meaning of their own; between quotes they do not.

> `isMatch_exactly`: a pattern without such characters matches its own text and no other one.
-/

namespace Provision

/-- A piece of a pattern. -/
inductive Glob.Piece
  | exactly (c : Char)
  /-- Any character. -/
  | any
  /-- Any text. -/
  | run
  /-- A character in one of some ranges, or in none of them. -/
  | oneOf (negated : Bool) (ranges : List (Char × Char))
deriving DecidableEq, Repr

/-- A pattern. -/
abbrev Glob := List Glob.Piece

namespace Glob

open Piece

/-- The characters of a text, each with a flag that says whether it may have a meaning of its
own. -/
abbrev Marked := List (Char × Bool)

/-- The text of flagged characters. -/
def Marked.text (cs : Marked) : String := String.ofList (cs.map Prod.fst)

/-- A text all of whose characters may have a meaning. -/
def Marked.ofText (s : String) : Marked := s.toList.map (·, true)

/-- Whether a piece takes a character. -/
def Piece.takes : Piece → Char → Bool
  | exactly a, c => a == c
  | any, _ | run, _ => true
  | oneOf negated ranges, c => Regex.inRanges ranges c != negated

/-- The ranges up to a closing bracket, which may come first itself, and what comes after it. -/
def bracket? : Nat → Bool → Marked → Option (List (Char × Char) × Marked)
  | 0, _, _ | _, _, [] => none
  | fuel + 1, isFirst, (c, free) :: rest =>
    if c == ']' && free && !isFirst then some ([], rest)
    else
      let single : Option (List (Char × Char) × Marked) :=
        match rest with
        | ('-', true) :: (d, free) :: after =>
          if d == ']' && free then
            (bracket? fuel false rest).map fun (rs, rest) => ((c, c) :: rs, rest)
          else (bracket? fuel false after).map fun (rs, rest) => ((c, d) :: rs, rest)
        | rest => (bracket? fuel false rest).map fun (rs, rest) => ((c, c) :: rs, rest)
      match c, free, rest with
      | '[', true, (':', _) :: more =>
        let name := more.takeWhile fun x => x.1 != ':'
        match more.drop name.length, Regex.classRanges? (Marked.text name) with
        | (':', _) :: (']', _) :: after, some ranges =>
          (bracket? fuel false after).map fun (rs, rest) => (ranges ++ rs, rest)
        | _, _ => single
      | _, _, _ => single

/-- The pattern of flagged characters. `caret` says that a caret negates brackets, too. -/
def ofMarked (caret : Bool) : Nat → Marked → Glob
  | 0, _ | _, [] => []
  | fuel + 1, (c, free) :: rest =>
    if !free then exactly c :: ofMarked caret fuel rest
    else if c == '*' then run :: ofMarked caret fuel rest
    else if c == '?' then any :: ofMarked caret fuel rest
    else if c == '\\' then
      match rest with
      | (d, _) :: rest => exactly d :: ofMarked caret fuel rest
      | [] => [exactly c]
    else if c == '[' then
      let negated := match rest with
        | (d, true) :: _ => d == '!' || (caret && d == '^')
        | _ => false
      let body := if negated then rest.drop 1 else rest
      match bracket? (body.length + 1) true body with
      | some (ranges, after) => oneOf negated ranges :: ofMarked caret fuel after
      | none => exactly c :: ofMarked caret fuel rest
    else exactly c :: ofMarked caret fuel rest

/-- The pattern that a text spells. -/
def ofText (s : String) : Glob := ofMarked true (s.length + 1) (Marked.ofText s)

/-- Whether a text matches a pattern. -/
def isMatch : Glob → List Char → Bool
  | [], cs => cs.isEmpty
  | run :: ps, [] => isMatch ps []
  | _ :: _, [] => false
  | run :: ps, c :: cs => isMatch ps (c :: cs) || isMatch (run :: ps) cs
  | p :: ps, c :: cs => p.takes c && isMatch ps cs
termination_by ps cs => ps.length + cs.length

/-- A pattern without wildcards matches its own text and no other. -/
theorem isMatch_exactly (s cs : List Char) :
    isMatch (s.map exactly) cs = true ↔ cs = s := by
  induction s generalizing cs with
  | nil => rw [List.map_nil, isMatch, List.isEmpty_iff]
  | cons c s ih =>
    cases cs with
    | nil => rw [List.map_cons, isMatch]; simp; simp
    | cons d cs =>
      rw [List.map_cons, isMatch]
      · simp only [Piece.takes, Bool.and_eq_true, beq_iff_eq, ih, List.cons.injEq]
        exact and_congr_left fun _ => eq_comm
      · simp

/-- Whether any piece can take more than one text. -/
def isOpen (g : Glob) : Bool :=
  g.any fun p => match p with
    | exactly _ => false
    | _ => true

/-- The text that a pattern of fixed characters stands for. -/
def literal (g : Glob) : String :=
  String.ofList (g.filterMap fun p => match p with
    | exactly c => some c
    | _ => none)

/-- Whether a name in a directory matches: names that begin with a dot only do if the pattern
does. -/
def matchesName (g : Glob) (name : String) : Bool :=
  isMatch g name.toList && (!name.startsWith "." || g.head? == some (exactly '.'))

/-- A text without a part at its start, or at its end, that matches a pattern: the shortest
such part, or the longest one. -/
def trimmed (g : Glob) (fromEnd longest : Bool) (cs : List Char) : List Char :=
  let sizes := List.range (cs.length + 1)
  let sizes := if longest then sizes.reverse else sizes
  let part (n : Nat) : List Char := if fromEnd then cs.drop (cs.length - n) else cs.take n
  match sizes.find? fun n => isMatch g (part n) with
  | some n => if fromEnd then cs.take (cs.length - n) else cs.drop n
  | none => cs

/-- How long the longest match at the start of a text is. -/
def longest? (g : Glob) (cs : List Char) : Option Nat :=
  (List.range (cs.length + 1)).reverse.find? fun n => isMatch g (cs.take n)

/-- A text in which what matches a pattern is replaced: once, or wherever it is. -/
def replaced (g : Glob) (new : List Char → List Char) (everywhere : Bool) :
    List Char → List Char
  | [] => []
  | c :: cs =>
    match longest? g (c :: cs) with
    | some (n + 1) =>
      let rest := cs.drop n
      let text := new ((c :: cs).take (n + 1))
      if everywhere then text ++ replaced g new everywhere rest else text ++ rest
    | _ => c :: replaced g new everywhere cs
termination_by cs => cs.length
decreasing_by all_goals simp; try omega

end Glob

end Provision
