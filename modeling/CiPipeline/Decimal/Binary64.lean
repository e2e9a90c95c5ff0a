/-
  CiPipeline.Decimal.Binary64
  ───────────────────────────
  **Floating-point numbers of 64 bits, known by their bits.**

  A number is its 64 bits, so equality of numbers is decidable and tells the two
  zeros apart.  This module reads the parts of a number (sign, significand,
  power of two) and makes a number from a decimal significand and a power of ten.
-/

namespace CiPipeline.Decimal

/-- A floating-point number of 64 bits. -/
structure Binary64 where
  bits : UInt64
  deriving DecidableEq, Repr, Inhabited

namespace Binary64

/-! ## §1. The parts of a number. -/

/-- The number is below zero or is the negative zero. -/
def isNegative (x : Binary64) : Bool :=
  x.bits.toNat ≥ Nat.pow 2 63

/-- The eleven bits of the exponent. -/
def exponentBits (x : Binary64) : Nat :=
  x.bits.toNat / Nat.pow 2 52 % Nat.pow 2 11

/-- The fifty-two bits of the fraction. -/
def fractionBits (x : Binary64) : Nat :=
  x.bits.toNat % Nat.pow 2 52

/-- The significand, with the leading bit that a normal number leaves out. -/
def significand (x : Binary64) : Nat :=
  if x.exponentBits = 0 then x.fractionBits else Nat.pow 2 52 + x.fractionBits

/-- The power of two that the significand is multiplied by. -/
def power (x : Binary64) : Int :=
  (max x.exponentBits 1 : Nat) - 1075

/-- The gap below the number is half of the gap above it: the significand is the
least one of a binade that has another binade below it. -/
def isBinadeStart (x : Binary64) : Bool :=
  x.fractionBits = 0 ∧ x.exponentBits > 1

/-! ## §2. Numbers from decimals. -/

/-- The number that a machine float holds. -/
def ofFloat (x : Float) : Binary64 :=
  ⟨x.toBits⟩

/-- A power of ten up to the largest that is finite, as a machine float. -/
private def powerOfTen (n : Nat) : Float :=
  Float.ofScientific 1 false n

/-- `x * 10 ^ e`, with one rounding for each factor of at most `10 ^ 308`;
nothing if the product is beyond the largest finite number. -/
def scale (x : Float) (e : Int) : Option Float :=
  if e.natAbs ≤ 308 then
    if 0 ≤ e then
      let y := x * powerOfTen e.natAbs
      if y.isInf then none else some y
    else some (x / powerOfTen e.natAbs)
  else if x == 0 then some x
  else if 0 ≤ e then none
  else scale (x / powerOfTen 308) (e + 308)
  termination_by e.natAbs

/-- The number `± significand * 10 ^ exponent`; nothing if it is too large. -/
def ofDecimal (negative : Bool) (significand : UInt64) (exponent : Int) : Option Binary64 :=
  (scale significand.toFloat exponent).map fun x => ofFloat (if negative then -x else x)

/-- The zero of a given sign. -/
def zero (negative : Bool) : Binary64 :=
  ⟨if negative then 0x8000000000000000 else 0⟩

end Binary64

end CiPipeline.Decimal
