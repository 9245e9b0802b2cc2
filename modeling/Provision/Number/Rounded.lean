import Provision.Number.Shortest

/-!
# Decimals of a given length

Numbers with as many digits as somebody asks for: with a number of places after the point, or
with an exponent, or as it is shorter. A text is read as an exact decimal, which may be
rounded to a binary mantissa before it is written.
-/

namespace Provision.Number

/-- A decimal with a sign. -/
structure Signed where
  negative : Bool
  magnitude : Decimal
deriving DecidableEq, Repr

namespace Signed

/-- The decimal in front of a text, and what comes after it. -/
def read? (cs : List Char) : Option (Signed × List Char) :=
  let (negative, cs) := match cs with
    | '-' :: rest => (true, rest)
    | '+' :: rest => (false, rest)
    | cs => (false, cs)
  let whole := cs.takeWhile Char.isDigit
  let rest := cs.drop whole.length
  let (part, rest) := match rest with
    | '.' :: rest =>
      let part := rest.takeWhile Char.isDigit
      if whole.isEmpty && part.isEmpty then ([], '.' :: rest) else (part, rest.drop part.length)
    | rest => ([], rest)
  if whole.isEmpty && part.isEmpty then none
  else
    let value (ds : List Char) : Nat := ds.foldl (fun n d => 10 * n + (d.toNat - 48)) 0
    let (power, rest) : Int × List Char := match rest with
      | e :: after =>
        let (minus, digits) := match after with
          | '-' :: ds => (true, ds)
          | '+' :: ds => (false, ds)
          | ds => (false, ds)
        let ds := digits.takeWhile Char.isDigit
        if (e == 'e' || e == 'E') && !ds.isEmpty then
          (if minus then -(value ds : Int) else value ds, digits.drop ds.length)
        else (0, rest)
      | [] => (0, [])
    some (⟨negative, value (whole ++ part), power - part.length⟩, rest)

/-- The decimal that a whole text spells. -/
def ofText? (s : String) : Option Signed :=
  match read? s.toList with
  | some (x, []) => some x
  | _ => none

/-- A decimal as an integer number of units of `10 ^ exponent`. -/
def units (x : Signed) (exponent : Int) : Int :=
  let n : Int := x.magnitude.digits * Nat.pow 10 (x.magnitude.exponent - exponent).toNat
  if x.negative then -n else n

/-- How two decimals are ordered. -/
def order (x y : Signed) : Ordering :=
  let least := min x.magnitude.exponent y.magnitude.exponent
  compare (x.units least) (y.units least)

/-- How many places a decimal has after the point. -/
def places (x : Signed) : Nat := (-x.magnitude.exponent).toNat

end Signed

/-- An exact number that is not negative, as a quotient. -/
structure Exact where
  num : Nat
  den : Nat

namespace Exact

/-- A decimal, exactly. -/
def ofDecimal (x : Decimal) : Exact :=
  ⟨x.digits * Nat.pow 10 x.exponent.toNat, Nat.pow 10 (-x.exponent).toNat⟩

/-- The nearest number whose mantissa has some bits. -/
def toBinary (x : Exact) (bits : Nat) : Exact :=
  if x.num = 0 then x
  else
    let e := Binary64.binaryOrder x.num x.den - bits + 1
    let m := Binary64.roundEven (x.num * Nat.pow 2 (-e).toNat) (x.den * Nat.pow 2 e.toNat)
    ⟨m * Nat.pow 2 e.toNat, Nat.pow 2 (-e).toNat⟩

/-- With some places after the point. -/
def places (x : Exact) (n : Nat) : String :=
  let ds := Nat.toDigits 10 (Binary64.roundEven (x.num * Nat.pow 10 n) x.den)
  let ds := List.replicate (n + 1 - ds.length) '0' ++ ds
  let whole := ds.take (ds.length - n)
  String.ofList (if n = 0 then whole else whole ++ '.' :: ds.drop (ds.length - n))

/-- The power of ten of the first digit. -/
def power (x : Exact) : Int :=
  if x.num = 0 then 0
  else
    let guess : Int := (Nat.toDigits 10 x.num).length - (Nat.toDigits 10 x.den).length
    let reached : Bool :=
      x.den * Nat.pow 10 guess.toNat ≤ x.num * Nat.pow 10 (-guess).toNat
    if reached then guess else guess - 1

/-- The digits with one place before the point and some after it, and the power of ten. -/
def digits (x : Exact) (n : Nat) : Nat × Int :=
  let shift := x.power - n
  let d := Binary64.roundEven (x.num * Nat.pow 10 (-shift).toNat)
    (x.den * Nat.pow 10 shift.toNat)
  if d = Nat.pow 10 (n + 1) then (d / 10, x.power + 1) else (d, x.power)

/-- With an exponent of two digits at least. -/
def scientific (x : Exact) (n : Nat) : String :=
  let (d, power) := x.digits n
  let ds := Nat.toDigits 10 d
  let ds := List.replicate (n + 1 - ds.length) '0' ++ ds
  let exponent := Nat.toDigits 10 power.natAbs
  String.ofList (ds.take 1 ++ (if n = 0 then [] else '.' :: ds.drop 1) ++ 'e' ::
    (if power < 0 then '-' else '+') :: List.replicate (2 - exponent.length) '0' ++ exponent)

/-- A text without the zeros after its point that say nothing. -/
def shortened (s : String) : String :=
  let cs := s.toList
  let mantissa := cs.takeWhile (· != 'e')
  let exponent := cs.drop mantissa.length
  if mantissa.contains '.' then
    let kept := (mantissa.reverse.dropWhile (· == '0')).reverse
    let kept := if kept.getLast? == some '.' then kept.dropLast else kept
    String.ofList (kept ++ exponent)
  else s

/-- With some significant digits, as it is shorter. -/
def general (x : Exact) (significant : Nat) (keepsZeros : Bool) : String :=
  let p := max significant 1
  let (_, power) := x.digits (p - 1)
  let s := if -4 ≤ power && power < p then x.places (p - 1 - power).toNat
    else x.scientific (p - 1)
  if keepsZeros then s else shortened s

end Exact

end Provision.Number
