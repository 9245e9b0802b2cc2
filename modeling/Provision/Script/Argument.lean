import Provision.Script.Field

/-!
# Arguments of commands

What the commands of the shell do with their arguments: options are told from operands, numbers
are read, and texts are printed as a shell reads them again.

> `escapedQuotes_of_forall_ne`: a text without single quotes stays as it is between them.
-/

namespace Provision.Script.Step

/-! ## Printing -/

/-- Prints a text. -/
def print (text : String) : Step Unit := do
  if text.isEmpty then return
  let s ← get
  match s.writeError? 1 with
  | some e =>
    let name := s.command.getD ""
    complain s!"{name}: I/O error" s!"{name}: write error: {e.text}"
    setStatus 1
    throw .failed
  | none => set { s with toProcess := s.toProcess.write 1 text }

/-- Prints a line. -/
def printLine (text : String) : Step Unit := print (text ++ "\n")

/-! ## Arguments -/

/-- The options in front of arguments, with the values of those that a colon follows in the
list of letters. -/
def switches (letters usage : String) : Nat → List String →
    Step (List (Char × String) × List String)
  | 0, rest => return ([], rest)
  | _, [] => return ([], [])
  | fuel + 1, a :: rest => do
    if a == "--" then return ([], rest)
    else match a.toList with
      | '-' :: c :: cs => word fuel (c :: cs) rest
      | _ => return ([], a :: rest)
where
  /-- The options in a word. -/
  word : Nat → List Char → List String → Step (List (Char × String) × List String)
  | 0, _, rest => return ([], rest)
  | fuel + 1, [], rest => switches letters usage fuel rest
  | fuel + 1, c :: cs, rest => do
    let known := letters.toList
    if c == ':' || !known.contains c then
      let name := (← get).command.getD ""
      let hint := if usage.isEmpty then "" else s!"\n{name}: usage: {usage}"
      failWith 2 s!"Illegal option -{c}" s!"{name}: -{c}: invalid option{hint}"
    else if (known.dropWhile (· != c)).drop 1 |>.head? |> (· == some ':') then
      match cs, rest with
      | [], v :: rest =>
        let (more, operands) ← switches letters usage fuel rest
        return ((c, v) :: more, operands)
      | [], [] =>
        let name := (← get).command.getD ""
        failWith 2 s!"No arg for -{c} option" s!"{name}: -{c}: option requires an argument"
      | cs, rest =>
        let (more, operands) ← switches letters usage fuel rest
        return ((c, String.ofList cs) :: more, operands)
    else
      let (more, operands) ← word fuel cs rest
      return ((c, "") :: more, operands)

/-- The options in front of arguments. -/
def optionsOf (letters usage : String) (args : List String) :
    Step (List (Char × String) × List String) :=
  switches letters usage ((args.map String.length).foldl (· + ·) (2 * args.length + 2)) args

/-- A number that is an argument of a special command. -/
def number (text : String) : Step Nat := do
  match Tool.nat? text with
  | some n =>
    if n < Nat.pow 2 31 then return n
    failWith 2 s!"Illegal number: {text}" ""
  | none => failWith 2 s!"Illegal number: {text}" ""

/-- A text between single quotes, as a shell reads it again. -/
def quotedText (s : String) : String :=
  if s.isEmpty then "''" else String.join (parts (s.length + 1) s.toList)
where
  /-- Runs of quotes, and runs of other characters. -/
  parts : Nat → List Char → List String
  | 0, _ | _, [] => []
  | fuel + 1, cs =>
    let quotes := cs.takeWhile (· == '\'')
    if quotes.isEmpty then
      let plain := cs.takeWhile (· != '\'')
      ("'" ++ String.ofList plain ++ "'") :: parts fuel (cs.drop plain.length)
    else ("\"" ++ String.ofList quotes ++ "\"") :: parts fuel (cs.drop quotes.length)

/-- A text between double quotes, as the richer language reads it again. -/
def doublyQuoted (s : String) : String :=
  let escaped := s.toList.flatMap fun c =>
    if c == '"' || c == '$' || c == '\\' || c == '\x60' then ['\\', c] else [c]
  "\"" ++ String.ofList escaped ++ "\""

/-- A text with each single quote outside the single quotes around it. -/
def escapedQuotes (s : String) : String :=
  String.ofList (s.toList.flatMap fun c => if c = '\'' then ['\'', '\\', '\'', '\''] else [c])

/-- A text between quotes, as the richer language reads it again: single quotes if all of it can
be printed. -/
def singlyQuoted (s : String) : String :=
  let control (c : Char) : Bool := c.toNat < 32 || 126 < c.toNat
  let escaped (c : Char) : String :=
    match c with
    | '\n' => "\\n"
    | '\t' => "\\t"
    | '\r' => "\\r"
    | '\'' => "\\'"
    | '\\' => "\\\\"
    | '\x07' => "\\a"
    | '\x08' => "\\b"
    | '\x0b' => "\\v"
    | '\x0c' => "\\f"
    | '\x1b' => "\\E"
    | c =>
      if control c then
        let digits := String.ofList (Nat.toDigits 8 c.toNat)
        "\\" ++ "".pushn '0' (3 - digits.length) ++ digits
      else String.singleton c
  if s.toList.any control then "$'" ++ String.join (s.toList.map escaped) ++ "'"
  else "'" ++ escapedQuotes s ++ "'"

/-- A text with quotes if it needs them. -/
def lightlyQuoted (s : String) : String :=
  let marks (c : Char) : Bool :=
    [' ', '\t', '\n', '\'', '"', '\\', '|', '&', ';', '(', ')', '<', '>', '!', '\x7b', '\x7d', '*',
      '[', '?', ']', '^', '$', '\x60'].contains c
  let control (c : Char) : Bool := c.toNat < 32 || 126 < c.toNat
  if !s.isEmpty && !s.toList.any (fun c => marks c || control c) && !s.startsWith "~" &&
    !s.startsWith "#" then s
  else singlyQuoted s

/-- Without single quotes there is nothing to escape. -/
theorem escapedQuotes_of_forall_ne {s : String} (h : ∀ c ∈ s.toList, c ≠ '\'') :
    escapedQuotes s = s := by
  unfold escapedQuotes
  suffices ∀ cs : List Char, (∀ c ∈ cs, c ≠ '\'') →
      cs.flatMap (fun c => if c = '\'' then ['\'', '\\', '\'', '\''] else [c]) = cs by
    rw [this _ h, String.ofList_toList]
  intro cs hcs
  induction cs with
  | nil => rfl
  | cons c cs ih =>
    rw [List.flatMap_cons, if_neg (hcs c (by simp)), ih fun d hd => hcs d (by simp [hd])]
    rfl

end Provision.Script.Step
