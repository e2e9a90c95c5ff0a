/-
  CiPipeline.Text.Quoted
  ──────────────────────
  **Texts quoted for a message.**

  A quoted text stands between double quotes; the quote, the backslash and the
  usual control characters are escaped by a letter, and every other character
  that cannot be drawn where it stands by its code point.
-/
import CiPipeline.Text.Category

namespace CiPipeline.Text

/-- The hexadecimal digits of a number, in small letters. -/
def hexDigits (n : Nat) : String :=
  String.ofList (Nat.toDigits 16 n)

/-- A character as it is written between quotes. -/
def quoteChar (c : Char) : String :=
  if c = '"' then "\\\""
  else if c = '\\' then "\\\\"
  else if c = '\n' then "\\n"
  else if c = '\r' then "\\r"
  else if c = '\t' then "\\t"
  else if c.toNat = 0 then "\\0"
  else if isPrintable c && !isExtender c then c.toString
  else "\\u\x7b" ++ hexDigits c.toNat ++ "\x7d"

/-- A text between quotes. -/
def quote (s : String) : String :=
  "\"" ++ String.join (s.toList.map quoteChar) ++ "\""

end CiPipeline.Text
