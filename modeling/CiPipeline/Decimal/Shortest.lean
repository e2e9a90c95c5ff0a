/-
  CiPipeline.Decimal.Shortest
  ───────────────────────────
  **The shortest decimal that reads back as a number.**

  All reals between the midpoints to the two neighbours of a number round to it
  (the midpoints themselves do exactly when the significand is even).  For one
  digit, two digits and so on the two decimals of that many digits next to the
  number are tried, in exact arithmetic of natural numbers; the first count of
  digits with a decimal in the interval wins, and of two such decimals the
  nearer.  Seventeen digits always suffice.
-/
import CiPipeline.Decimal.Binary64

namespace CiPipeline.Decimal

/-- A positive rational number as a fraction. -/
structure Fraction where
  num : Nat
  den : Nat

namespace Fraction

/-- `n * 2 ^ e`. -/
def ofBinary (n : Nat) (e : Int) : Fraction :=
  if 0 ≤ e then ⟨n * Nat.pow 2 e.toNat, 1⟩ else ⟨n, Nat.pow 2 (-e).toNat⟩

/-- `n * 10 ^ e`. -/
def ofDecimal (n : Nat) (e : Int) : Fraction :=
  if 0 ≤ e then ⟨n * Nat.pow 10 e.toNat, 1⟩ else ⟨n, Nat.pow 10 (-e).toNat⟩

/-- Less or equal, by cross multiplication. -/
def le (a b : Fraction) : Bool :=
  a.num * b.den ≤ b.num * a.den

/-- Less, by cross multiplication. -/
def lt (a b : Fraction) : Bool :=
  a.num * b.den < b.num * a.den

/-- The whole part of `a / 10 ^ e`. -/
def floorAt (a : Fraction) (e : Int) : Nat :=
  if 0 ≤ e then a.num / (a.den * Nat.pow 10 e.toNat) else a.num * Nat.pow 10 (-e).toNat / a.den

/-- The exponent of the first digit: the largest `e` with `10 ^ e ≤ a`. -/
def leadingExponent (a : Fraction) : Int :=
  if a.den ≤ a.num then ((Nat.toDigits 10 (a.num / a.den)).length : Int) - 1
  else
    let n := (Nat.toDigits 10 (a.den / a.num)).length
    if a.den ≤ a.num * Nat.pow 10 (n - 1) then -((n : Int) - 1) else -(n : Int)

end Fraction

/-- A decimal `digits * 10 ^ exponent`. -/
structure Scientific where
  digits : Nat
  exponent : Int
  deriving DecidableEq, Repr

/-- The interval of the reals that round to a number. -/
structure Rounding where
  low : Fraction
  value : Fraction
  high : Fraction
  closed : Bool

/-- The interval of a finite number that is not zero, without its sign. -/
def Rounding.of (x : Binary64) : Rounding :=
  let m := x.significand
  let q := x.power - 2
  { low := .ofBinary (4 * m - (if x.isBinadeStart then 1 else 2)) q
    value := .ofBinary (4 * m) q
    high := .ofBinary (4 * m + 2) q
    closed := m % 2 = 0 }

/-- The decimal lies in the interval. -/
def Rounding.holds (r : Rounding) (d : Scientific) : Bool :=
  let f := Fraction.ofDecimal d.digits d.exponent
  if r.closed then r.low.le f && f.le r.high else r.low.lt f && f.lt r.high

/-- The decimal with a given number of digits that reads back as the number, if
there is one: of the two next to the number, the nearer one in the interval. -/
def Rounding.decimal? (r : Rounding) (count : Nat) : Option Scientific :=
  let e := r.value.leadingExponent - (count : Int) + 1
  let n := r.value.floorAt e
  let below : Scientific := ⟨n, e⟩
  let above : Scientific := if n + 1 = Nat.pow 10 count then ⟨1, e + count⟩ else ⟨n + 1, e⟩
  -- twice the number against the sum of its two neighbours on the grid
  let middle := Fraction.ofDecimal (2 * n + 1) e
  let twice : Fraction := ⟨2 * r.value.num, r.value.den⟩
  let belowFirst := twice.lt middle || (twice.le middle && n % 2 = 0)
  let (first, second) := if belowFirst then (below, above) else (above, below)
  if r.holds first then some first
  else if r.holds second then some second
  else none

/-- The shortest decimal that reads back as a finite number that is not zero. -/
def shortest (x : Binary64) : Scientific :=
  let r := Rounding.of x
  ((List.range 17).findSome? fun i => r.decimal? (i + 1)).getD ⟨0, 0⟩

/-- The bounds between which a number is written without a power of ten. -/
structure PositionalRange where
  least : Int
  greatest : Int

/-- Numbers from `10 ^ -5` up to, and not with, `10 ^ 16` are written without a
power of ten. -/
def positional : PositionalRange := ⟨-5, 15⟩

private def zeros (n : Nat) : String :=
  String.ofList (List.replicate n '0')

/-- The digits of a decimal that does not end in a zero, with a point in the
right place: at least one digit stands on each side of it, and outside the
positional range a power of ten with its sign follows the digits. -/
def Scientific.text (d : Scientific) : String :=
  let digits := toString d.digits
  let count := digits.length
  let leading := d.exponent + (count : Int) - 1
  if positional.least ≤ leading && leading ≤ positional.greatest then
    if 0 ≤ d.exponent then digits ++ zeros d.exponent.toNat ++ ".0"
    else if 0 ≤ leading then
      let whole := leading.toNat + 1
      String.ofList (digits.toList.take whole) ++ "." ++ String.ofList (digits.toList.drop whole)
    else "0." ++ zeros ((-leading).toNat - 1) ++ digits
  else
    let mantissa :=
      if count = 1 then digits
      else String.ofList (digits.toList.take 1) ++ "." ++ String.ofList (digits.toList.drop 1)
    mantissa ++ "e" ++ (if 0 ≤ leading then "+" else "-") ++ toString leading.natAbs

/-- The shortest text that reads back as a finite number; a whole number below
`10 ^ 16` keeps one zero after the point. -/
def Binary64.text (x : Binary64) : String :=
  let magnitude := if x.significand = 0 then "0.0" else (shortest x).text
  if x.isNegative then "-" ++ magnitude else magnitude

end CiPipeline.Decimal
