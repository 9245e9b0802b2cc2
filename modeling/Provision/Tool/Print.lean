import Provision.Tool
import Provision.Number.Rounded

/-!
# Printing by a format

Formats with directives and escapes, as `printf` reads them, and the escapes that `echo` reads.
Shells and the program of the system differ in what they know and in how they complain.
-/

namespace Provision

open Number (Signed Exact)

/-- Who prints: a shell with few escapes, one with many, or the program of the system. -/
inductive PrintStyle
  | plain | rich | tool
deriving DecidableEq

/-- What is printed, what is wrong, and whether all output ends here. -/
structure Printout where
  text : String := ""
  complaints : List String := []
  ended : Bool := false
  /-- The format itself is wrong. -/
  broken : Bool := false

namespace PrintStyle

/-! ## Escapes -/

/-- The value of a digit of a base up to 16. -/
def digitValue (c : Char) : Nat :=
  if c.isDigit then c.toNat - 48
  else if 'a' ≤ c.toLower ∧ c.toLower ≤ 'f' then c.toLower.toNat - 87 else 99

/-- At most some digits of a base: their value, and what comes after them. -/
def digitsOf (base most : Nat) (cs : List Char) : Option (Nat × List Char) :=
  let ds := (cs.take most).takeWhile fun c => digitValue c < base
  if ds.isEmpty then none
  else some (ds.foldl (fun n c => base * n + digitValue c) 0, cs.drop ds.length)

/-- The octets of a character with a number. -/
def unicode (n : Nat) : String :=
  if n < 128 then String.singleton (Char.ofNat n)
  else "\\u" ++ String.ofList (List.replicate (4 - (Nat.toDigits 16 n).length) '0' ++
    (Nat.toDigits 16 n).map Char.toUpper)

/-- The escape after a backslash: its octets, and what comes after it. In arguments octal
escapes may begin with a zero that does not count. -/
def escape (style : PrintStyle) (inArgument : Bool) (cs : List Char) : String × List Char :=
  match cs with
  | [] => ("\\", [])
  | c :: rest =>
    let one (n : Nat) : String := String.singleton (Char.ofNat (n % 256))
    let same : String × List Char := ("\\", c :: rest)
    match c with
    | 'a' => (one 7, rest)
    | 'b' => (one 8, rest)
    | 'e' => (one 27, rest)
    | 'f' => (one 12, rest)
    | 'n' => (one 10, rest)
    | 'r' => (one 13, rest)
    | 't' => (one 9, rest)
    | 'v' => (one 11, rest)
    | '\\' => ("\\", rest)
    | 'E' => if style == .rich then (one 27, rest) else same
    | '"' => if style != .plain && !inArgument then ("\"", rest) else same
    | '\'' => if style == .rich && !inArgument then ("'", rest) else same
    | '?' => if style == .rich && !inArgument then ("?", rest) else same
    | 'x' =>
      if style == .plain then same
      else match digitsOf 16 2 rest with
        | some (n, rest) => (one n, rest)
        | none => same
    | 'u' =>
      if style == .plain then same
      else match digitsOf 16 4 rest with
        | some (n, rest) => (unicode n, rest)
        | none => same
    | 'U' =>
      if style == .plain then same
      else match digitsOf 16 8 rest with
        | some (n, rest) => (unicode n, rest)
        | none => same
    | c =>
      let start := if inArgument && c == '0' && (digitsOf 8 1 rest).isSome then rest else c :: rest
      match digitsOf 8 3 start with
      | some (n, rest) => (one n, rest)
      | none => same

/-- An argument with its escapes, and whether all output ends in it. -/
def unescaped (style : PrintStyle) : Nat → List Char → String × Bool
  | 0, _ | _, [] => ("", false)
  | fuel + 1, '\\' :: rest =>
    match rest with
    | 'c' :: _ => ("", true)
    | rest =>
      let (s, rest) := style.escape true rest
      let (more, ended) := unescaped style fuel rest
      (s ++ more, ended)
  | fuel + 1, c :: rest =>
    let (more, ended) := unescaped style fuel rest
    (String.singleton c ++ more, ended)

/-- What `echo` prints for its arguments without options. -/
def echoed (style : PrintStyle) (breaks escapes : Bool) (args : List String) : String :=
  let ending := if breaks then "\n" else ""
  if !escapes then " ".intercalate args ++ ending
  else
    let rec go : List String → String
      | [] => ending
      | [a] =>
        let (s, ended) := style.unescaped (a.length + 1) a.toList
        if ended then s else s ++ ending
      | a :: rest =>
        let (s, ended) := style.unescaped (a.length + 1) a.toList
        if ended then s else s ++ " " ++ go rest
    go args

/-! ## Numbers -/

/-- The integer in front of a text, and what comes after it. -/
def integer (s : String) : Option (Int × List Char) :=
  let cs := s.toList.dropWhile fun c => c == ' ' || ('\t' ≤ c && c ≤ '\x0d')
  let (negative, cs) := match cs with
    | '-' :: rest => (true, rest)
    | '+' :: rest => (false, rest)
    | cs => (false, cs)
  let found := match cs with
    | '0' :: x :: rest =>
      if x == 'x' || x == 'X' then
        match digitsOf 16 rest.length rest with
        | some r => some r
        | none => some (0, x :: rest)
      else digitsOf 8 cs.length cs
    | cs => digitsOf 10 cs.length cs
  found.map fun (n, rest) => (if negative then -(n : Int) else n, rest)

/-- How a style says that an argument is not a number, or not all of it. -/
def wrongNumber (style : PrintStyle) (s : String) (partly : Bool) : String :=
  match style with
  | .plain => s ++ (if partly then ": not completely converted" else ": expected numeric value")
  | .rich =>
    if partly && s.startsWith "0" && s.toList.all Char.isDigit then
      s!"{s}: invalid octal number"
    else s!"{s}: invalid number"
  | .tool =>
    Tool.quoted s ++ (if partly then ": value not completely converted"
      else ": expected a numeric value")

/-- How a style says that a number is too large. -/
def tooLarge (style : PrintStyle) (s : String) : String :=
  let why := "Numerical result out of range"
  match style with
  | .plain => s!"{s}: {why}"
  | .rich => s!"warning: {s}: {why}"
  | .tool => s!"{Tool.quoted s}: {why}"

/-- The greatest number of 63 bits. -/
def maxSigned : Int := Nat.pow 2 63 - 1

/-- The number that an argument spells, and what is wrong with it. -/
def number (style : PrintStyle) (signed : Bool) (s : String) : Int × List String :=
  match s.toList with
  | [] => (0, [])
  | '"' :: rest | '\'' :: rest => ((rest.headD '\x00').toNat, [])
  | _ =>
    match integer s with
    | none => (0, [style.wrongNumber s false])
    | some (n, rest) =>
      let least := -maxSigned - 1
      let most : Int := if signed then maxSigned else 2 * maxSigned + 1
      let clamped := if most < n then most else if n < least then least else n
      if !rest.isEmpty then (clamped, [style.wrongNumber s true])
      else if clamped != n then (clamped, [style.tooLarge s])
      else (n, [])

/-! ## Directives -/

end PrintStyle

/-- The flags, width and precision of a directive. -/
structure Field where
  left : Bool := false
  zeros : Bool := false
  plus : Bool := false
  blank : Bool := false
  other : Bool := false
  width : Nat := 0
  precision : Option Nat := none

namespace Field

/-- A text filled to the width of a field. -/
def filled (f : Field) (s : String) : String :=
  let missing := f.width - s.length
  if f.left then s ++ "".pushn ' ' missing else "".pushn ' ' missing ++ s

/-- A number in a field, its sign being put before zeros. -/
def signed (f : Field) (zeros : Bool) (sign body : String) : String :=
  if zeros && !f.left then sign ++ "".pushn '0' (f.width - sign.length - body.length) ++ body
  else f.filled (sign ++ body)

/-- The sign of a number. -/
def sign (f : Field) (negative : Bool) : String :=
  if negative then "-" else if f.plus then "+" else if f.blank then " " else ""

/-- An integer in a field. -/
def integer (f : Field) (letter : Char) (n : Int) : String :=
  let isSigned := letter == 'd' || letter == 'i'
  let value : Nat := if isSigned then n.natAbs else (n.emod (Nat.pow 2 64)).toNat
  let base := if letter == 'o' then 8 else if letter == 'x' || letter == 'X' then 16 else 10
  let digits := String.ofList (Nat.toDigits base value)
  let digits := if f.precision == some 0 && value == 0 then "" else digits
  let digits := "".pushn '0' (f.precision.getD 0 - digits.length) ++ digits
  let digits := if f.other && letter == 'o' && !digits.startsWith "0" then "0" ++ digits else digits
  let digits := if letter == 'X' then digits.toUpper else digits
  let front := if f.other && value != 0 && (letter == 'x' || letter == 'X') then
      "0" ++ String.singleton letter else ""
  f.signed (f.zeros && f.precision.isNone)
    (front ++ if isSigned then f.sign (n < 0) else "") digits

/-- A number with a point in a field. -/
def decimal (f : Field) (letter : Char) (negative : Bool) (x : Exact) : String :=
  let p := f.precision.getD 6
  let body := match letter.toLower with
    | 'e' => x.scientific p
    | 'f' => x.places p
    | _ => x.general p f.other
  f.signed f.zeros (f.sign negative) (if letter.isUpper then body.toUpper else body)

end Field

namespace PrintStyle

/-- The number with a point that an argument spells, and what is wrong with it. -/
def decimalArgument (style : PrintStyle) (s : String) : Bool × Exact × List String :=
  let bits := if style == .plain then 53 else 64
  let zero : Exact := ⟨0, 1⟩
  match s.toList with
  | [] => (false, zero, [])
  | '"' :: rest | '\'' :: rest => (false, ⟨(rest.headD '\x00').toNat, 1⟩, [])
  | cs =>
    match Signed.read? (cs.dropWhile (· == ' ')) with
    | none => (false, zero, [style.wrongNumber s false])
    | some (x, rest) =>
      let value := (Exact.ofDecimal x.magnitude).toBinary bits
      (x.negative, value, if rest.isEmpty then [] else [style.wrongNumber s true])

/-- A text that a shell would read as the word that it is. -/
def shellQuoted (s : String) : String :=
  if s.isEmpty then "''"
  else
    let plain (c : Char) : Bool :=
      c.isAlphanum || ['%', '+', '-', '.', '/', ':', '=', '@', '_'].contains c || 127 < c.toNat
    String.join (s.toList.map fun c => if plain c then String.singleton c
      else "\\" ++ String.singleton c)

/-- A state of printing: what has been printed, and the arguments that are left. -/
structure Progress where
  out : Printout := {}
  args : List String

/-- Adds a text. -/
def Progress.add (p : Progress) (s : String) : Progress :=
  { p with out := { p.out with text := p.out.text ++ s } }

/-- Adds a complaint. -/
def Progress.complain (p : Progress) (s : List String) : Progress :=
  { p with out := { p.out with complaints := p.out.complaints ++ s } }

/-- The flags of a directive. -/
def flags : Field → List Char → Field × List Char
  | f, '-' :: rest => flags { f with left := true } rest
  | f, '0' :: rest => flags { f with zeros := true } rest
  | f, '+' :: rest => flags { f with plus := true } rest
  | f, ' ' :: rest => flags { f with blank := true } rest
  | f, '#' :: rest => flags { f with other := true } rest
  | f, cs => (f, cs)

/-- The width and the precision of a directive, which may be arguments. -/
def measures (style : PrintStyle) (p : Progress) (f : Field) (cs : List Char) :
    Progress × Field × List Char :=
  let value (ds : List Char) : Nat := ds.foldl (fun n d => 10 * n + (d.toNat - 48)) 0
  let (p, f, cs) := match cs with
    | '*' :: rest =>
      let (n, wrong) := style.number true (p.args.headD "")
      let f := { f with width := n.natAbs, left := f.left || n < 0 }
      ({ p with args := p.args.drop 1 }.complain wrong, f, rest)
    | cs =>
      let ds := cs.takeWhile Char.isDigit
      (p, { f with width := value ds }, cs.drop ds.length)
  match cs with
  | '.' :: '*' :: rest =>
    let (n, wrong) := style.number true (p.args.headD "")
    ({ p with args := p.args.drop 1 }.complain wrong,
      { f with precision := if n < 0 then none else some n.toNat }, rest)
  | '.' :: rest =>
    let ds := rest.takeWhile Char.isDigit
    (p, { f with precision := some (value ds) }, rest.drop ds.length)
  | cs => (p, f, cs)

/-- The complaint about a directive without a letter, or with a wrong one. -/
def badDirective (style : PrintStyle) (directive : String) (letter : Option Char) : String :=
  match style, letter with
  | .plain, none => "missing format character"
  | .plain, some _ => s!"{directive}: invalid directive"
  | .rich, none => s!"\x60{directive}': missing format character"
  | .rich, some c =>
    let shown := String.singleton c
    s!"\x60{shown}': invalid format character"
  | .tool, _ => s!"{directive}: invalid conversion specification"

/-- Prints by a format once. -/
def pass (style : PrintStyle) : Nat → List Char → Progress → Progress
  | 0, _, p => p
  | _, [], p => p
  | fuel + 1, '\\' :: rest, p =>
    if style == .tool && rest.head? == some 'c' then
      { p with out := { p.out with ended := true } }
    else
      let (s, rest) := style.escape false rest
      pass style fuel rest (p.add s)
  | fuel + 1, '%' :: '%' :: rest, p => pass style fuel rest (p.add "%")
  | fuel + 1, '%' :: rest, p =>
    let (f, cs) := flags {} rest
    let (p, f, cs) := style.measures p f cs
    let cs := if style == .plain then cs
      else cs.dropWhile fun c => ['l', 'h', 'L', 'j', 'z', 't', 'q'].contains c && !(c == 'q' &&
        style == .rich)
    let directive := String.ofList ('%' :: rest.take (rest.length - cs.length))
    let broken (letter : Option Char) : Progress :=
      let shown := match letter with
        | some c => directive ++ String.singleton c
        | none => directive
      let q := p.complain [style.badDirective shown letter]
      { q with out := { q.out with broken := true } }
    match cs with
    | [] => broken none
    | c :: after =>
      let arg := p.args.headD ""
      let p := { p with args := p.args.drop 1 }
      if c == 's' then
        let s := match f.precision with
          | some n => String.ofList (arg.toList.take n)
          | none => arg
        pass style fuel after (p.add (f.filled s))
      else if c == 'b' then
        let (s, ended) := style.unescaped (arg.length + 1) arg.toList
        if ended then { p.add s with out := { (p.add s).out with ended := true } }
        else
          let s := match f.precision with
            | some n => String.ofList (s.toList.take n)
            | none => s
          pass style fuel after (p.add (f.filled s))
      else if c == 'c' then
        pass style fuel after (p.add (f.filled (String.singleton (arg.toList.headD '\x00'))))
      else if c == 'q' && style != .plain then
        pass style fuel after (p.add (f.filled (shellQuoted arg)))
      else if ['d', 'i', 'o', 'u', 'x', 'X'].contains c then
        let (n, wrong) := style.number (c == 'd' || c == 'i') arg
        pass style fuel after ((p.complain wrong).add (f.integer c n))
      else if ['e', 'E', 'f', 'F', 'g', 'G'].contains c then
        let (negative, x, wrong) := style.decimalArgument arg
        pass style fuel after ((p.complain wrong).add (f.decimal c negative x))
      else broken (some c)
  | fuel + 1, c :: rest, p => pass style fuel rest (p.add (String.singleton c))

/-- Prints by a format again and again until no argument is left. -/
def passes (style : PrintStyle) (format : List Char) : Nat → Progress → Progress
  | 0, p => p
  | fuel + 1, p =>
    let q := style.pass (format.length + 1) format p
    if q.out.ended || q.out.broken || q.args.isEmpty || q.args.length == p.args.length then q
    else passes style format fuel q

/-- What `printf` prints. -/
def printed (style : PrintStyle) (format : String) (args : List String) : Printout :=
  (style.passes format.toList (args.length + 1) { args := args }).out

end PrintStyle

namespace Tool

/-- Prints by a format. -/
def printf (args : List String) : Tool Nat := do
  let args := if args.head? == some "--" then args.drop 1 else args
  match args with
  | [] => refuse 1 "missing operand"
  | format :: rest =>
    let p := PrintStyle.tool.printed format rest
    put p.text
    p.complaints.forM complain
    return if p.complaints.isEmpty then 0 else 1

/-- Whether an argument holds options of `echo`. -/
def isEchoOption (s : String) : Bool :=
  1 < s.length && s.startsWith "-" && (s.toList.drop 1).all fun c => ['n', 'e', 'E'].contains c

/-- The options of `echo` and the other arguments: whether a line break is printed, and
whether escapes have a meaning. -/
def echoOptions : Bool → Bool → List String → Bool × Bool × List String
  | breaks, escapes, [] => (breaks, escapes, [])
  | breaks, escapes, a :: rest =>
    if isEchoOption a then
      let escapes := a.toList.foldl (fun e c => if c == 'e' then true else if c == 'E' then false
        else e) escapes
      echoOptions (breaks && !a.contains 'n') escapes rest
    else (breaks, escapes, a :: rest)

/-- Prints its arguments. -/
def echo (args : List String) : Tool Nat := do
  let (breaks, escapes, rest) := echoOptions true false args
  put (PrintStyle.tool.echoed breaks escapes rest)
  return 0

end Tool

end Provision
