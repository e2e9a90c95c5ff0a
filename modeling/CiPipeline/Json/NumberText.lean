/-
  CiPipeline.Json.NumberText
  ──────────────────────────
  **Reading a number.**

  A number without fraction and exponent that fits 64 bits is whole, signed or
  not; every other number, and the negative zero, is floating-point.  The
  significand of a floating-point number is collected in 64 bits: the digits that
  do not fit are left out, and those before the point count as powers of ten.  A
  number that is too large, or breaks off at the end of the text, means different
  things to a reader that keeps it and to one that skips it.
-/
import CiPipeline.Json.Doc

namespace CiPipeline.Json

open Decimal (Binary64)

/-- The value of a digit. -/
def digitValue (c : Char) : Nat :=
  c.toNat - '0'.toNat

/-- The leading digits of a text, and the text after them. -/
def spanDigits (cs : List Char) : List Char × List Char :=
  (cs.takeWhile Char.isDigit, cs.dropWhile Char.isDigit)

/-- The least number that does not fit 64 bits. -/
def wordSize : Nat := Nat.pow 2 64

/-- Appends digits to a significand as long as it fits 64 bits: the significand
that is reached, and the digits that are left. -/
def appendDigits (significand : Nat) : List Char → Nat × List Char
  | [] => (significand, [])
  | c :: cs =>
      let next := significand * 10 + digitValue c
      if next < wordSize then appendDigits next cs else (significand, c :: cs)

/-- The exponent of a number as it is written: its sign and its digits. -/
structure ExponentText where
  negative : Bool
  digits : List Char

/-- A number as it is written. -/
structure NumberText where
  negative : Bool
  whole : List Char
  fraction : Option (List Char)
  exponent : Option ExponentText

namespace NumberText

/-- The largest exponent that is counted. -/
def exponentLimit : Int := Int.pow 2 31 - 1

/-- Keeps an exponent between the least and the largest that are counted. -/
private def clamp (e : Int) : Int :=
  max (-(exponentLimit + 1)) (min exponentLimit e)

/-- The floating-point number with a significand, a power of ten, and the
exponent that is written; nothing if it is too large. -/
private def float (negative : Bool) (significand : Nat) (power : Int) :
    Option ExponentText → Option Binary64
  | none => Binary64.ofDecimal negative (UInt64.ofNat significand) power
  | some e =>
      let written : Int := (e.digits.foldl (fun n c => n * 10 + digitValue c) 0 : Nat)
      if written > exponentLimit then
        if significand ≠ 0 && !e.negative then none else some (Binary64.zero negative)
      else
        Binary64.ofDecimal negative (UInt64.ofNat significand)
          (clamp (if e.negative then power - written else power + written))

/-- The number that is written; nothing if it is too large. -/
def number (t : NumberText) : Option Number :=
  let (significand, left) := appendDigits 0 t.whole
  match t.fraction, t.exponent, left with
  | none, none, [] =>
      if !t.negative then some (.integer significand)
      else if significand = 0 || significand > Nat.pow 2 63 then
        (float true significand 0 none).map .float
      else some (.integer (-significand))
  | fraction, exponent, left =>
      let digits := fraction.getD []
      -- digits that no longer fit are dropped behind the point and counted before it
      let (significand, unused) := appendDigits significand digits
      let power : Int := (left.length : Int) - ((digits.length : Int) - (unused.length : Int))
      (float t.negative significand power exponent).map .float

end NumberText

/-! ## §1. Reading. -/

/-- A number that breaks off: at the end of the text only a reader that keeps it
waits for more. -/
private def tornNumber (rest : List Char) : Doc :=
  .torn (if rest.isEmpty then .truncated else .malformed) (some .malformed)

/-- The number that is written; one that is too large is sound only for a reader
that skips it. -/
private def finish (t : NumberText) : Doc :=
  match t.number with
  | some n => .number n
  | none => .torn .malformed none

/-- The text after the sign of an exponent, if it has one. -/
private def dropSign (cs : List Char) : List Char :=
  if cs.head? = some '-' ∨ cs.head? = some '+' then cs.tail else cs

/-- Reads what may follow the digits of a number: an exponent. -/
private def readExponent (negative : Bool) (whole : List Char) (fraction : Option (List Char))
    (cs : List Char) : Doc × List Char :=
  match cs with
  | [] => (finish ⟨negative, whole, fraction, none⟩, [])
  | c :: rest =>
      if c = 'e' ∨ c = 'E' then
        match spanDigits (dropSign rest) with
        | ([], after) => (tornNumber after, [])
        | (digits, after) =>
            (finish ⟨negative, whole, fraction, some ⟨rest.head? = some '-', digits⟩⟩, after)
      else (finish ⟨negative, whole, fraction, none⟩, c :: rest)

/-- Reads what may follow the whole part of a number: a fraction and an exponent. -/
private def readFraction (negative : Bool) (whole : List Char) (cs : List Char) :
    Doc × List Char :=
  match cs with
  | '.' :: rest =>
      match spanDigits rest with
      | ([], after) => (tornNumber after, [])
      | (digits, after) => readExponent negative whole (some digits) after
  | cs => readExponent negative whole none cs

/-- Reads a number without its sign: no digit may follow a leading zero. -/
private def readUnsigned (negative : Bool) (cs : List Char) : Doc × List Char :=
  match spanDigits cs with
  | ([], after) => (tornNumber after, [])
  | ('0' :: _ :: _, _) => (.torn .malformed (some .malformed), [])
  | (whole, after) => readFraction negative whole after

/-- Reads the number that a text starts with. -/
def readNumber : List Char → Doc × List Char
  | '-' :: cs => readUnsigned true cs
  | cs => readUnsigned false cs

/-! ## §2. What is left is no longer than the text. -/

theorem length_spanDigits_le (cs : List Char) : (spanDigits cs).2.length ≤ cs.length :=
  (List.dropWhile_sublist _).length_le

private theorem length_dropSign_le (cs : List Char) : (dropSign cs).length ≤ cs.length := by
  unfold dropSign
  split
  · simp
  · exact Nat.le_refl _

private theorem readExponent_length_le (negative : Bool) (whole : List Char)
    (fraction : Option (List Char)) (cs : List Char) :
    (readExponent negative whole fraction cs).2.length ≤ cs.length := by
  unfold readExponent
  split
  · exact Nat.le_refl _
  · rename_i c rest
    split
    · have hsign := length_dropSign_le rest
      have h := length_spanDigits_le (dropSign rest)
      split
      · simp
      · rename_i heq
        rw [heq] at h
        simp only [List.length_cons] at *
        omega
    · exact Nat.le_refl _

private theorem readFraction_length_le (negative : Bool) (whole cs : List Char) :
    (readFraction negative whole cs).2.length ≤ cs.length := by
  unfold readFraction
  split
  · rename_i rest
    have h := length_spanDigits_le rest
    split
    · simp
    · rename_i digits after _ heq
      rw [heq] at h
      have := readExponent_length_le negative whole (some digits) after
      simp only [List.length_cons] at *
      omega
  · exact readExponent_length_le negative whole none cs

private theorem readUnsigned_length_le (negative : Bool) (cs : List Char) :
    (readUnsigned negative cs).2.length ≤ cs.length := by
  unfold readUnsigned
  have h := length_spanDigits_le cs
  split
  · simp
  · simp
  · rename_i whole after _ _ heq
    rw [heq] at h
    exact Nat.le_trans (readFraction_length_le negative whole after) h

theorem readNumber_length_le (cs : List Char) : (readNumber cs).2.length ≤ cs.length := by
  unfold readNumber
  split
  · exact Nat.le_succ_of_le (readUnsigned_length_le true _)
  · exact readUnsigned_length_le false cs

end CiPipeline.Json
