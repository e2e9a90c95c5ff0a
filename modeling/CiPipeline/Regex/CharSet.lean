/-
  CiPipeline.Regex.CharSet
  ────────────────────────
  **Sets of characters, as expressions.**

  A set is built from ranges and properties of characters by the operations of
  sets.  It stays an expression, so two sets written alike are equal and the
  large tables of the properties are only consulted for the characters that are
  asked for.
-/
import CiPipeline.Text.Category
import CiPipeline.Text.CaseFold

namespace CiPipeline.Regex

open Text (Category)

/-- A property of characters that a pattern may name. -/
inductive Property where
  | any
  | assigned
  | ascii
  | alphabetic
  | blank
  | digit
  | word
  | general (categories : List Category)
  deriving DecidableEq, Repr

/-- The character has the property. -/
def Property.holds : Property → Char → Bool
  | .any, _ => true
  | .assigned, c => Text.category c != .unassigned
  | .ascii, c => c.toNat < 128
  | .alphabetic, c => Text.isLetter c
  | .blank, c => Text.isBlank c
  | .digit, c => Text.isDecimalDigit c
  | .word, c => Text.isWordChar c
  | .general categories, c => categories.contains (Text.category c)

/-- A set of characters. -/
inductive CharSet where
  | none
  | range (low high : Char)
  | property (p : Property)
  | union (a b : CharSet)
  | inter (a b : CharSet)
  | diff (a b : CharSet)
  | compl (a : CharSet)
  /-- The characters that differ at most in case from one of the set. -/
  | caseless (a : CharSet)
  /-- The same for the letters of ASCII alone. -/
  | asciiCaseless (a : CharSet)
  deriving DecidableEq, Repr

namespace CharSet

/-- The set of one character. -/
def single (c : Char) : CharSet := .range c c

/-- The set of all characters. -/
def all : CharSet := .property .any

/-- The characters that are in one of two sets and not in the other. -/
def symmDiff (a b : CharSet) : CharSet := .diff (.union a b) (.inter a b)

/-- The ASCII letter in the other case; other characters as they are. -/
def swapAsciiCase (c : Char) : Char :=
  if c.isUpper then c.toLower else c.toUpper

/-- The character is in the set. -/
def contains : CharSet → Char → Bool
  | .none, _ => false
  | .range low high, c => low ≤ c && c ≤ high
  | .property p, c => p.holds c
  | .union a b, c => a.contains c || b.contains c
  | .inter a b, c => a.contains c && b.contains c
  | .diff a b, c => a.contains c && !b.contains c
  | .compl a, c => !a.contains c
  | .caseless a, c => (Text.caseVariants c).any a.contains
  | .asciiCaseless a, c => a.contains c || a.contains (swapAsciiCase c)

/-- A set of one character holds that character alone. -/
theorem contains_single (a c : Char) : (single a).contains c = decide (c = a) := by
  simp only [single, contains]
  by_cases h : c = a
  · simp [h]
  · simp only [h, decide_false, Bool.and_eq_false_iff, decide_eq_false_iff_not]
    by_cases hle : a ≤ c
    · exact .inr fun hge => h (Char.le_antisymm hge hle)
    · exact .inl hle

end CharSet

end CiPipeline.Regex
