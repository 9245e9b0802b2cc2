/-!
# Templates

A template is a command with placeholders: `{name}` stands for the value of a parameter.
Doubled braces are written for single ones, and `${…}` up to the next closing brace belongs
to the shell and is copied. Everything else is copied too.

> `next_length`: a piece is read without adding to the rest;
> `render`: the text of a template, or its first placeholder without a value.

Mirrors `substitute`. The alternatives of the pattern `PLACEHOLDER` are tried by `next` at
each character in turn; the pattern finds the leftmost match and copies what is before it,
which comes to the same.
-/

namespace Provision.Template

/-- A piece of a template. -/
inductive Piece
  | literal (cs : List Char)
  | placeholder (name : List Char)
deriving DecidableEq, Repr

/-- Whether a parameter's name may begin with a character. -/
def startsName (c : Char) : Bool := c.isAlpha || c == '_'

/-- Whether a parameter's name may go on with a character. -/
def continuesName (c : Char) : Bool := c.isAlphanum || c == '_'

/-- Whether a character does not close a brace. -/
def isOpen (c : Char) : Bool := c != '\x7d'

/-- The piece that begins with a character, and what follows it. -/
def next (c : Char) (rest : List Char) : Piece × List Char :=
  let single : Piece × List Char := (.literal [c], rest)
  if c = '\x7b' then
    match rest with
    | '\x7b' :: rest' => (.literal ['\x7b'], rest')
    | d :: rest' =>
      if startsName d then
        match rest'.dropWhile continuesName with
        | '\x7d' :: rest'' => (.placeholder (d :: rest'.takeWhile continuesName), rest'')
        | _ => single
      else single
    | [] => single
  else if c = '\x7d' then
    match rest with
    | '\x7d' :: rest' => (.literal ['\x7d'], rest')
    | _ => single
  else if c = '$' then
    match rest with
    | '\x7b' :: rest' =>
      match rest'.dropWhile isOpen with
      | '\x7d' :: rest'' =>
        (.literal ('$' :: '\x7b' :: rest'.takeWhile isOpen ++ ['\x7d']), rest'')
      | _ => single
    | _ => single
  else single

theorem dropWhile_length_le (p : Char → Bool) (cs : List Char) :
    (cs.dropWhile p).length ≤ cs.length :=
  (List.dropWhile_suffix p).length_le

/-- A token of a template is followed by less text than it was read from, so reading it ends. -/
theorem next_length (c : Char) (rest : List Char) : (next c rest).2.length ≤ rest.length := by
  unfold next
  simp only
  split
  · split
    · simp
    · next d rest' _ =>
      split
      · split
        · next rest'' h =>
          have := dropWhile_length_le continuesName rest'
          rw [h] at this
          simp only [List.length_cons] at this ⊢
          omega
        · simp
      · simp
    · simp
  · split
    · split <;> simp
    · split
      · split
        · next rest' =>
          split
          · next rest'' h =>
            have := dropWhile_length_le isOpen rest'
            rw [h] at this
            simp only [List.length_cons] at this ⊢
            omega
          · simp
        · simp
      · simp

/-- The pieces of a template, from left to right. -/
def pieces : List Char → List Piece
  | [] => []
  | c :: rest => (next c rest).1 :: pieces (next c rest).2
termination_by cs => cs.length
decreasing_by
  have := next_length c rest
  simp only [List.length_cons]
  omega

/-- The text of pieces, or the name of the first placeholder without a value. -/
def renderPieces (value : String → Option String) : List Piece → Except String (List Char)
  | [] => .ok []
  | .literal cs :: rest => do
    return cs ++ (← renderPieces value rest)
  | .placeholder name :: rest =>
    match value (String.ofList name) with
    | none => .error (String.ofList name)
    | some v => do
      return v.toList ++ (← renderPieces value rest)

/-- The text of a template. -/
def render (value : String → Option String) (template : String) : Except String String :=
  (renderPieces value (pieces template.toList)).map String.ofList

end Provision.Template
