import Provision.Yaml.Node
import Provision.Yaml.Value

/-!
# What scalars mean

A plain scalar without a tag is null, a truth value, a number or a string by its spelling;
a quoted scalar is a string. A tag of the core schema demands its own type of spelling.

> `ofNode_quoted`: without a tag, a quoted scalar means its text.

Mirrors the resolution of untagged scalars in the deserialiser, and its reading of the tags of
the core schema.
-/

namespace Provision.Yaml

open Provision.Number (Binary64)

/-- The meaning of a scalar. Integers beyond 64 bits are told apart, no value holds them. -/
inductive Scalar
  | null
  | bool (b : Bool)
  | integer (n : Int)
  | wide (n : Int)
  | float (x : Binary64)
  | string (s : String)
deriving DecidableEq, Repr

namespace Scalar

/-! ## Spellings -/

/-- The spellings of null. -/
def isNull (cs : List Char) : Bool :=
  cs == ['n', 'u', 'l', 'l'] || cs == ['N', 'u', 'l', 'l'] || cs == ['N', 'U', 'L', 'L'] ||
    cs == ['~']

/-- The spellings of the truth values. -/
def bool? (cs : List Char) : Option Bool :=
  let s := String.ofList cs
  if s == "true" || s == "True" || s == "TRUE" then some true
  else if s == "false" || s == "False" || s == "FALSE" then some false
  else none

/-- The text after one sign. -/
def unsigned (cs : List Char) : List Char :=
  match cs with
  | '+' :: rest | '-' :: rest => rest
  | cs => cs

/-- The text after a plus. -/
def withoutPlus (cs : List Char) : List Char :=
  match cs with
  | '+' :: rest => rest
  | cs => cs

/-- Whether a text is a number with superfluous leading zeros, which counts as a string. -/
def hasLeadingZero (cs : List Char) : Bool :=
  match unsigned cs with
  | '0' :: c :: rest => (c :: rest).all Char.isDigit
  | _ => false

/-- The number that digits spell in a base, one digit at least. -/
def natural? (base : Nat) (cs : List Char) : Option Nat :=
  if cs.isEmpty then none
  else cs.foldlM (fun n c => do
    let d ← hexValue? c
    if d < base then some (base * n + d) else none) 0

/-- The magnitude of an integer without sign: decimal, or with the mark of its base. -/
def magnitude? (cs : List Char) : Option Nat :=
  match cs with
  | '0' :: 'x' :: rest => natural? 16 rest
  | '0' :: 'o' :: rest => natural? 8 rest
  | '0' :: 'b' :: rest => natural? 2 rest
  | cs => if hasLeadingZero cs then none else natural? 10 cs

/-- An integer of at most 128 bits. -/
def integer? (cs : List Char) : Option Scalar :=
  match cs with
  | '-' :: rest => do
    let n ← magnitude? rest
    if n ≤ Nat.pow 2 63 then some (.integer (-n))
    else if n ≤ Nat.pow 2 127 then some (.wide (-n)) else none
  | cs => do
    let n ← magnitude? (withoutPlus cs)
    if n < Nat.pow 2 64 then some (.integer n)
    else if n < Nat.pow 2 128 then some (.wide n) else none

/-- The digits after a point, if there is one, and what follows. -/
def fraction (cs : List Char) : List Char × List Char :=
  match cs with
  | '.' :: rest => (rest.takeWhile Char.isDigit, rest.dropWhile Char.isDigit)
  | rest => ([], rest)

/-- The integer that digits with an optional sign spell. -/
def signed? (cs : List Char) : Option Int :=
  match cs with
  | '-' :: ds => (natural? 10 ds).map fun n => -Int.ofNat n
  | '+' :: ds => (natural? 10 ds).map Int.ofNat
  | ds => (natural? 10 ds).map Int.ofNat

/-- The power of ten at the end of a decimal, zero if there is none. -/
def power? (cs : List Char) : Option Int :=
  match cs with
  | [] => some 0
  | c :: rest => if c == 'e' || c == 'E' then signed? rest else none

/-- The decimal that digits with an optional point and exponent spell. -/
def decimal? (negative : Bool) (cs : List Char) : Option Binary64 := do
  let whole := cs.takeWhile Char.isDigit
  let (part, rest) := fraction (cs.dropWhile Char.isDigit)
  let digits ← natural? 10 (whole ++ part)
  let power ← power? rest
  return Binary64.ofDecimal negative digits (power - part.length)

/-- The number that a text with a point or an exponent spells, if it is finite, and the
spellings of the infinities and of the undefined number. -/
def float? (cs : List Char) : Option Binary64 :=
  let s := String.ofList cs
  if s == ".nan" || s == ".NaN" || s == ".NAN" then some .nan
  else if s == "-.inf" || s == "-.Inf" || s == "-.INF" then some (.infinite true)
  else
    let positive := withoutPlus cs
    let p := String.ofList positive
    if p == ".inf" || p == ".Inf" || p == ".INF" then some (.infinite false)
    else
      let number := match positive with
        | '-' :: rest => if cs.head? == some '+' then none else decimal? true rest
        | '+' :: _ => none
        | ds => decimal? false ds
      number.filter Binary64.isFinite

/-! ## Meanings -/

/-- The meaning of a plain scalar without a tag. -/
def ofPlain (text : String) : Scalar :=
  let cs := text.toList
  if cs.isEmpty || isNull cs then .null
  else match bool? cs with
    | some b => .bool b
    | none => match integer? cs with
      | some n => n
      | none =>
        if hasLeadingZero cs then .string text
        else match float? cs with
          | some x => .float x
          | none => .string text

/-- What a tag of the core schema demands. -/
inductive Demand
  | null | boolean | integer | float
deriving DecidableEq, Repr

/-- The meaning of a scalar, or the demand that it does not meet. A tag of one's own leaves
the meaning as it is, any other tag makes a string. -/
def ofNode (tag : Option Tag) (style : Style) (text : String) : Except Demand Scalar :=
  let cs := text.toList
  let free := if style == .plain then ofPlain text else .string text
  match tag with
  | none | some (.custom _) | some .nameless => .ok free
  | some .other => .ok (.string text)
  | some .bool => ((bool? cs).map .bool).elim (.error .boolean) .ok
  | some .int => (integer? cs).elim (.error .integer) .ok
  | some .float => ((float? cs).map .float).elim (.error .float) .ok
  | some .null => if isNull cs then .ok .null else .error .null

/-- A scalar in quotes or in a block is a string, whatever it says. -/
theorem ofNode_quoted {style : Style} (h : style ≠ .plain) (text : String) :
    ofNode none style text = .ok (.string text) := by
  simp [ofNode, h]

/-- Floating point numbers in messages never have an exponent. -/
def messageLayout : Number.Layout :=
  { positional := fun _ => true, plusSign := false
    nan := "NaN", infinity := "inf" }

/-- A scalar as messages name it. -/
def described : Scalar → String
  | .null => "unit value"
  | .bool b => s!"boolean \x60{Value.boolText b}\x60"
  | .integer n => s!"integer \x60{n}\x60"
  | .wide n => s!"integer \x60{n}\x60 as " ++ (if n < 0 then "i128" else "u128")
  | .float x => s!"floating point \x60{messageLayout.text x}\x60"
  | .string s => s!"string {Text.quoted s}"

/-- The value of a scalar, if it fits. -/
def value? : Scalar → Option Value
  | .null => some .null
  | .bool b => some (.bool b)
  | .integer n => some (.integer n)
  | .wide _ => none
  | .float x => some (.float x)
  | .string s => some (.string s)

end Scalar

end Provision.Yaml
