/-!
# Binary floating point numbers, 64 bits

A number that a configuration writes with a point or an exponent is read as the nearest
number of the form `m · 2 ^ e` with `m < 2 ^ 53` and `e ≥ -1074`, a tie going to the even
`m`. Everything is exact arithmetic on naturals.

> `ofDecimal`: the nearest number to `digits · 10 ^ exponent`.
-/

namespace Provision.Number

/-- A number of 64 bits. A finite one is `± mantissa · 2 ^ exponent`. -/
inductive Binary64
  | nan
  | infinite (negative : Bool)
  | finite (negative : Bool) (mantissa : Nat) (exponent : Int)
deriving DecidableEq, Repr

namespace Binary64

/-- The least mantissa of a number that is not subnormal. -/
def hidden : Nat := Nat.pow 2 52

/-- The least exponent. -/
def minExponent : Int := -1074

/-- The greatest exponent. -/
def maxExponent : Int := 971

/-- Zero with a sign. -/
def zero (negative : Bool) : Binary64 := .finite negative 0 minExponent

/-- The quotient rounded to the nearest natural, a tie to the even one. -/
def roundEven (num den : Nat) : Nat :=
  let q := num / den
  let r := 2 * (num % den)
  if r < den then q else if den < r then q + 1 else q + q % 2

/-- The exponent of the leading binary digit of `num / den`, for positive arguments. -/
def binaryOrder (num den : Nat) : Int :=
  let guess : Int := (Nat.log2 num : Int) - (Nat.log2 den : Int)
  let reached : Bool :=
    if 0 ≤ guess then den * Nat.pow 2 guess.toNat ≤ num else den ≤ num * Nat.pow 2 (-guess).toNat
  if reached then guess else guess - 1

/-- The nearest number to a positive quotient. -/
def ofQuotient (negative : Bool) (num den : Nat) : Binary64 :=
  let e := max minExponent (binaryOrder num den - 52)
  let m := if 0 ≤ e then roundEven num (den * Nat.pow 2 e.toNat)
    else roundEven (num * Nat.pow 2 (-e).toNat) den
  let (m, e) := if m = 2 * hidden then (hidden, e + 1) else (m, e)
  if maxExponent < e then .infinite negative else .finite negative m e

/-- How many decimal digits a natural number has, zero having none. -/
def digitCount (n : Nat) : Nat := if n = 0 then 0 else (Nat.toDigits 10 n).length

/-- The nearest number to `digits · 10 ^ exponent`. Values beyond the range of the format
are told by their order of magnitude alone. -/
def ofDecimal (negative : Bool) (digits : Nat) (exponent : Int) : Binary64 :=
  if digits = 0 then zero negative
  else
    let order := exponent + digitCount digits
    if 310 < order then .infinite negative
    else if order < -330 then zero negative
    else if 0 ≤ exponent then ofQuotient negative (digits * Nat.pow 10 exponent.toNat) 1
    else ofQuotient negative digits (Nat.pow 10 (-exponent).toNat)

/-- Whether a number is neither infinite nor undefined. -/
def isFinite : Binary64 → Bool
  | .finite .. => true
  | _ => false

/-- Whether two numbers are the same value: the two zeros are, and so are two undefined
numbers. -/
def same : Binary64 → Binary64 → Bool
  | .finite _ 0 _, .finite _ 0 _ => true
  | x, y => x == y

/-- A number is the same as itself, a `NaN` included. -/
theorem same_refl (x : Binary64) : x.same x = true := by
  unfold same; split <;> simp

end Binary64

end Provision.Number
