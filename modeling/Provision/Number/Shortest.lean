import Provision.Number.Binary64

/-!
# The shortest decimal of a number

A number is written with the fewest decimal digits that read back as the same number;
of two such decimals the nearer is taken. The candidates of a given length are the two
neighbours of the value on a decimal grid, and the first grid with a hit is the answer.
How the digits are laid out is a `Layout`, chosen where a text is written.
-/

namespace Provision.Number

/-- A positive decimal: `digits · 10 ^ exponent`. -/
structure Decimal where
  digits : Nat
  exponent : Int
deriving DecidableEq, Repr

namespace Shortest

/-- A value with the two ends of the interval that rounds to it, as naturals over one
denominator; the ends belong to the interval when `closed` is set. -/
structure Cell where
  low : Nat
  value : Nat
  high : Nat
  den : Nat
  closed : Bool

/-- The interval of a positive number. -/
def cell (mantissa : Nat) (exponent : Int) : Cell :=
  let below := if mantissa = Binary64.hidden ∧ Binary64.minExponent < exponent then 1 else 2
  let e := exponent - 2
  let scale := Nat.pow 2 e.toNat
  { low := (4 * mantissa - below) * scale
    value := 4 * mantissa * scale
    high := (4 * mantissa + 2) * scale
    den := Nat.pow 2 (-e).toNat
    closed := mantissa % 2 = 0 }

/-- The cell in units of `10 ^ k`. -/
def Cell.inUnits (c : Cell) (k : Int) : Cell :=
  let up := Nat.pow 10 (-k).toNat
  { c with low := c.low * up, value := c.value * up, high := c.high * up
           den := c.den * Nat.pow 10 k.toNat }

/-- Whether a natural number lies in the interval. -/
def Cell.holds (c : Cell) (n : Nat) : Bool :=
  if c.closed then c.low ≤ n * c.den && n * c.den ≤ c.high
  else c.low < n * c.den && n * c.den < c.high

/-- The nearer of the two neighbours of the value that the interval holds. -/
def Cell.neighbour (c : Cell) : Option Nat :=
  let d := c.value / c.den
  let down := 0 < d && c.holds d
  let up := c.holds (d + 1)
  let r := 2 * (c.value % c.den)
  if down && up then some (if r < c.den || (r = c.den && d % 2 = 0) then d else d + 1)
  else if down then some d
  else if up then some (d + 1)
  else none

/-- The power of ten of the leading digit, found among `fuel + 1` powers down from `k`. -/
def leading (c : Cell) : Nat → Int → Int
  | 0, k => k
  | fuel + 1, k =>
    let c' := c.inUnits k
    if c'.den ≤ c'.value then k else leading c fuel (k - 1)

/-- Tries grids of `n` digits and more, `10 ^ top` being the leading power. -/
def search (c : Cell) (top : Int) : Nat → Int → Decimal
  | 0, k => ⟨c.value / c.den, k⟩
  | fuel + 1, k =>
    match (c.inUnits k).neighbour with
    | some d => ⟨d, k⟩
    | none => search c top fuel (k - 1)

/-- Moves trailing zeros of the digits into the exponent. -/
def strip : Nat → Decimal → Decimal
  | 0, x => x
  | fuel + 1, x =>
    if x.digits ≠ 0 ∧ x.digits % 10 = 0 then strip fuel ⟨x.digits / 10, x.exponent + 1⟩ else x

/-- The shortest decimal of a positive number. -/
def ofFinite (mantissa : Nat) (exponent : Int) : Decimal :=
  let c := cell mantissa exponent
  let guess := (((Nat.log2 mantissa : Int) + exponent) * 30103) / 100000 + 2
  let top := leading c 8 guess
  strip 20 (search c top 20 top)

end Shortest

/-! ## Layout -/

/-- How a number is laid out as text. `positional k` says whether a number whose point
stands `k` places after its first digit's front is written without an exponent. -/
structure Layout where
  positional : Int → Bool
  plusSign : Bool
  nan : String
  infinity : String

namespace Layout

/-- The text of a positive decimal. Positional text always has a point. -/
def decimal (l : Layout) (x : Decimal) : List Char :=
  let ds := Nat.toDigits 10 x.digits
  let point := x.exponent + ds.length
  if l.positional point then
    if 0 ≤ x.exponent then ds ++ List.replicate x.exponent.toNat '0' ++ ['.', '0']
    else if 0 < point then ds.take point.toNat ++ '.' :: ds.drop point.toNat
    else '0' :: '.' :: List.replicate (-point).toNat '0' ++ ds
  else
    let power := point - 1
    let sign := if power < 0 then ['-'] else if l.plusSign then ['+'] else []
    let head := match ds with
      | [d] => [d]
      | d :: rest => d :: '.' :: rest
      | [] => []
    head ++ 'e' :: sign ++ Nat.toDigits 10 power.natAbs

/-- The text of a number. -/
def text (l : Layout) : Binary64 → String
  | .nan => l.nan
  | .infinite negative => if negative then "-" ++ l.infinity else l.infinity
  | .finite negative m e =>
    let body := if m = 0 then ['0', '.', '0'] else l.decimal (Shortest.ofFinite m e)
    String.ofList (if negative then '-' :: body else body)

end Layout

end Provision.Number
