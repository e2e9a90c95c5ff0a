/-
  CiPipeline.Json.Writer
  ──────────────────────
  **The text of a JSON value.**

  No blanks are written; characters outside ASCII stand for themselves, and inside
  quotes the quote, the backslash and the control characters are escaped.
-/
import CiPipeline.Json.Value
import CiPipeline.Text.Quoted

namespace CiPipeline.Json

/-- The text of a number. -/
def Number.text : Number → String
  | .integer n => toString n
  | .float x => x.text

/-- A code point in four hexadecimal digits. -/
private def fourDigits (n : Nat) : String :=
  let digits := Text.hexDigits n
  String.ofList (List.replicate (4 - digits.length) '0') ++ digits

/-- Appends a character as it is written between quotes. -/
private def pushEscaped (out : String) (c : Char) : String :=
  if c = '"' then out ++ "\\\""
  else if c = '\\' then out ++ "\\\\"
  else if c = '\n' then out ++ "\\n"
  else if c = '\r' then out ++ "\\r"
  else if c = '\t' then out ++ "\\t"
  else if c = '\x08' then out ++ "\\b"
  else if c = '\x0c' then out ++ "\\f"
  else if c.toNat < 0x20 then out ++ "\\u" ++ fourDigits c.toNat
  else out.push c

/-- Appends a text between quotes. -/
private def writeString (out : String) (s : String) : String :=
  (s.toList.foldl pushEscaped (out.push '"')).push '"'

mutual

/-- Appends the text of a value. -/
private def writeTo (out : String) : Json → String
  | .null => out ++ "null"
  | .bool true => out ++ "true"
  | .bool false => out ++ "false"
  | .number n => out ++ n.text
  | .string s => writeString out s
  | .array items => writeItems (out.push '[') true items
  | .object members => writeMembers (out.push '\x7b') true members

/-- Appends items and the closing bracket. -/
private def writeItems (out : String) (first : Bool) : List Json → String
  | [] => out.push ']'
  | item :: items =>
      writeItems (writeTo (if first then out else out.push ',') item) false items

/-- Appends members and the closing brace. -/
private def writeMembers (out : String) (first : Bool) : List (String × Json) → String
  | [] => out.push '\x7d'
  | (key, value) :: members =>
      let out := writeString (if first then out else out.push ',') key
      writeMembers (writeTo (out.push ':') value) false members

end

/-- The text of a value. -/
def text (j : Json) : String :=
  writeTo "" j

end CiPipeline.Json
