import Provision.Tool
import Provision.Number.Rounded

/-!
# Counting

Programs that count what is in files, and one that counts from a number to another.
-/

namespace Provision.Tool

open Number (Signed Exact Decimal)

/-! ## What is in files -/

/-- Whether a character separates words. -/
def separatesWords (c : Char) : Bool := c == ' ' || ('\t' ≤ c && c ≤ '\x0d')

/-- How many words a text has; `inside` says that the text goes on with a word. -/
def wordCount : Bool → List Char → Nat
  | _, [] => 0
  | inside, c :: rest =>
    if separatesWords c then wordCount false rest
    else (if inside then 0 else 1) + wordCount true rest

/-- The greatest width of the lines of a text. -/
def longestLine (text : String) : Nat :=
  (text.splitOn "\n").foldl (fun n l =>
    max n (l.toList.foldl (fun w c => if c == '\t' then w / 8 * 8 + 8
      else if 32 ≤ c.toNat && c.toNat < 127 then w + 1 else w) 0)) 0

/-- What can be counted: lines, words, characters, bytes, and the longest line. -/
structure Counts where
  lines : Nat := 0
  words : Nat := 0
  bytes : Nat := 0
  longest : Nat := 0

/-- What there is in a text. -/
def Counts.ofText (text : String) : Counts :=
  let cs := text.toList
  { lines := cs.count '\n', words := wordCount false cs, bytes := cs.length
    longest := longestLine text }

/-- What there is in two texts. -/
def Counts.add (a b : Counts) : Counts :=
  ⟨a.lines + b.lines, a.words + b.words, a.bytes + b.bytes, max a.longest b.longest⟩

/-- The size of a file, if it is one. -/
def fileSize? (p : Process) (path : String) : Option (Option Nat) :=
  let place := if path == "-" then
      match p.stream? 0 with
      | some (.file place ..) => some place
      | _ => none
    else (p.locate path).toOption
  if path == "-" && place.isNone then some none
  else match place.bind p.files.get? with
    | some ⟨.file bytes, _, _⟩ => some (some bytes.length)
    | some _ => some none
    | none => none

/-- Counts lines, words and bytes of files. -/
def wc (args : List String) : Tool Nat := do
  let (given, paths) ← options
    [⟨'c', "bytes", .never⟩, ⟨'m', "chars", .never⟩, ⟨'l', "lines", .never⟩,
      ⟨'L', "max-line-length", .never⟩, ⟨'w', "words", .never⟩] args
  let columns : List (Char × (Counts → Nat)) :=
    [('l', Counts.lines), ('w', Counts.words), ('m', Counts.bytes), ('c', Counts.bytes),
      ('L', Counts.longest)]
  let chosen := if given.isEmpty then columns.filter fun e => e.1 != 'm' && e.1 != 'L'
    else columns.filter fun e => given.has e.1
  let p ← get
  let files := if paths.isEmpty then ["-"] else paths
  let sizes := files.map (fileSize? p)
  let width :=
    if (files.length = 1 && chosen.length = 1) || sizes.head? == some none then 1
    else
      let total := sizes.foldl (fun n s => n + ((s.getD none).getD 0)) 0
      let least := if sizes.contains (some none) then 7 else 1
      max least (Nat.toDigits 10 total).length
  let row (c : Counts) (name : String) : String :=
    let shown := " ".intercalate (chosen.map fun e => padLeft width (toString (e.2 c)))
    if name.isEmpty then shown else shown ++ " " ++ name
  let mut total : Counts := {}
  let mut status := 0
  for path in files do
    match ← input path with
    | .ok text =>
      let c := Counts.ofText text
      total := total.add c
      putLine (row c (if paths.isEmpty then "" else path))
    | .error e =>
      complain s!"{path}: {e.text}"
      status := 1
      if e = .isDirectory then putLine (row {} path)
  if 1 < files.length then putLine (row total "total")
  return status

/-! ## Counting from a number to another -/

/-- The numbers from one to another in steps. -/
def progression : Nat → Int → Int → Int → List Int
  | 0, _, _, _ => []
  | fuel + 1, n, step, last =>
    if (0 < step && last < n) || (step < 0 && n < last) then []
    else n :: progression fuel (n + step) step last

/-- A number of units of `10 ^ -places`. -/
def decimalText (n : Int) (places : Nat) : String :=
  let body := Exact.places (Exact.ofDecimal ⟨n.natAbs, -places⟩) places
  if n < 0 then "-" ++ body else body

/-- A text filled with zeros after its sign up to a width. -/
def padZeros (width : Nat) (s : String) : String :=
  let (sign, digits) := if s.startsWith "-" then ("-", String.ofList (s.toList.drop 1)) else ("", s)
  sign ++ "".pushn '0' (width - s.length) ++ digits

/-- A format with one directive for a number: what stands before it, its flags, width,
precision and letter, and what stands after it. -/
structure NumberFormat where
  before : String
  flags : List Char
  width : Nat
  precision : Option Nat
  letter : Char
  after : String

/-- The format that a text spells. -/
def NumberFormat.read? (s : String) : Option NumberFormat :=
  let rec split : List Char → Option (List Char × List Char)
    | '%' :: '%' :: rest => (split rest).map fun (a, b) => ('%' :: a, b)
    | '%' :: rest => some ([], rest)
    | c :: rest => (split rest).map fun (a, b) => (c :: a, b)
    | [] => none
  match split s.toList with
  | none => none
  | some (before, rest) =>
    let flags := rest.takeWhile fun c => ['-', '+', ' ', '0', '#', '\''].contains c
    let rest := rest.drop flags.length
    let width := rest.takeWhile Char.isDigit
    let rest := rest.drop width.length
    let (precision, rest) := match rest with
      | '.' :: rest =>
        let ds := rest.takeWhile Char.isDigit
        (some ((nat? (String.ofList ds)).getD 0), rest.drop ds.length)
      | rest => (none, rest)
    match rest with
    | c :: after =>
      if ['e', 'E', 'f', 'F', 'g', 'G'].contains c then
        some ⟨String.ofList before, flags, (nat? (String.ofList width)).getD 0, precision, c,
          (String.ofList after).replace "%%" "%"⟩
      else none
    | [] => none

/-- The text of a number in a format, its digits and its sign being given. -/
def NumberFormat.text (f : NumberFormat) (negative : Bool) (x : Exact) : String :=
  let body := match f.letter with
    | 'e' | 'E' => x.scientific (f.precision.getD 6)
    | 'f' | 'F' => x.places (f.precision.getD 6)
    | _ => x.general (f.precision.getD 6) (f.flags.contains '#')
  let body := if f.letter.isUpper then body.toUpper else body
  let sign := if negative then "-" else if f.flags.contains '+' then "+"
    else if f.flags.contains ' ' then " " else ""
  let missing := f.width - sign.length - body.length
  if f.flags.contains '-' then sign ++ body ++ "".pushn ' ' missing
  else if f.flags.contains '0' then sign ++ "".pushn '0' missing ++ body
  else "".pushn ' ' missing ++ sign ++ body

/-- Whether an argument is a negative number and not an option. -/
def isNegativeNumber (s : String) : Bool :=
  match s.toList with
  | '-' :: c :: _ => c.isDigit || c == '.'
  | _ => false

/-- Prints numbers from one to another. -/
def seq (args : List String) : Tool Nat := do
  let front := args.takeWhile fun a => a.startsWith "-" && !isNegativeNumber a
  let withValue := ["-s", "-f", "--separator", "--format"]
  let rec split : List String → List String × List String
    | a :: rest =>
      if !a.startsWith "-" || isNegativeNumber a || a == "-" then ([], a :: rest)
      else if a == "--" then ([], rest)
      else if withValue.contains a then
        match rest with
        | v :: rest =>
          let (front, back) := split rest
          (a :: v :: front, back)
        | [] => ([a], [])
      else
        let (front, back) := split rest
        (a :: front, back)
    | [] => ([], [])
  let (front, operands) := if front.isEmpty then ([], args) else split args
  let operands := if operands.head? == some "--" then operands.drop 1 else operands
  let (given, _) ← options
    [⟨'s', "separator", .always⟩, ⟨'w', "equal-width", .never⟩, ⟨'f', "format", .always⟩] front
  let number (s : String) : Tool Signed := do
    match Signed.ofText? s with
    | some x => return x
    | none => refuse 1 s!"invalid floating point argument: {quoted s}"
  let one : Signed := ⟨false, ⟨1, 0⟩⟩
  let (first, step, last) ← (match operands with
    | [] => refuse 1 "missing operand"
    | [b] => return (one, one, ← number b)
    | [a, b] => return (← number a, one, ← number b)
    | [a, s, b] => do
      let first ← number a
      let step ← number s
      if step.magnitude.digits = 0 then refuse 1 s!"invalid Zero increment value: {quoted s}"
      return (first, step, ← number b)
    | _ :: _ :: _ :: extra :: _ => refuse 1 s!"extra operand {quoted extra}")
  let places := max first.places step.places
  let finest := max places last.places
  let units (x : Signed) : Int := x.units (-finest)
  let count := if units step = 0 then 0
    else ((units last - units first) / units step + 1).toNat + 1
  let numbers := progression count (units first) (units step) (units last)
  let coarse : Int := Nat.pow 10 (finest - places)
  let plain (n : Int) : String := decimalText (n / coarse) places
  let texts ← (match given.value? 'f' with
    | none => pure (numbers.map plain)
    | some f => match NumberFormat.read? f with
      | none => fail 1 s!"format {quoted f} has no % directive"
      | some format => pure (numbers.map fun n =>
          format.before ++ format.text (n < 0) (Exact.ofDecimal ⟨n.natAbs, -finest⟩) ++
            format.after))
  let texts := if given.has 'w' then
      let width := max (plain (units first)).length (plain (units last / coarse * coarse)).length
      texts.map (padZeros width)
    else texts
  let separator := (given.value? 's').getD "\n"
  if !texts.isEmpty then put (separator.intercalate texts ++ "\n")
  return 0

end Provision.Tool
