/-
  CiPipeline.Json.QuotedText
  ──────────────────────────
  **Reading a text between quotes.**

  A code point above `0xFFFF` is written as two escapes, one for each half of a
  surrogate pair.  A reader that keeps the text refuses half a pair; one that
  skips it only asks for four hexadecimal digits.  So the walk remembers a half
  that waits for its other one, and the first problem of a keeping reader, while
  it goes on for a skipping one.
-/
import CiPipeline.Json.Doc

namespace CiPipeline.Json

/-- The value of a hexadecimal digit. -/
def hexValue? (c : Char) : Option Nat :=
  if c.isDigit then some (c.toNat - '0'.toNat)
  else if 'a' ≤ c ∧ c ≤ 'f' then some (c.toNat - 'a'.toNat + 10)
  else if 'A' ≤ c ∧ c ≤ 'F' then some (c.toNat - 'A'.toNat + 10)
  else none

/-- The number that four hexadecimal digits stand for. -/
def hexUnit? (a b c d : Char) : Option Nat := do
  let a ← hexValue? a
  let b ← hexValue? b
  let c ← hexValue? c
  let d ← hexValue? d
  return ((a * 16 + b) * 16 + c) * 16 + d

/-- The first half of a surrogate pair. -/
def isHighHalf (n : Nat) : Bool := 0xD800 ≤ n && n ≤ 0xDBFF

/-- The second half of a surrogate pair. -/
def isLowHalf (n : Nat) : Bool := 0xDC00 ≤ n && n ≤ 0xDFFF

/-- The character that a surrogate pair stands for. -/
def joinHalves (high low : Nat) : Char :=
  Char.ofNat ((high - 0xD800) * 0x400 + (low - 0xDC00) + 0x10000)

/-- The character that one letter after a backslash stands for. -/
def shortEscape? : Char → Option Char
  | '"' => some '"'
  | '\\' => some '\\'
  | '/' => some '/'
  | 'b' => some '\x08'
  | 'f' => some '\x0c'
  | 'n' => some '\n'
  | 'r' => some '\r'
  | 't' => some '\t'
  | _ => none

/-- What is known on the way through a text between quotes: the characters so far
(the latest first), the first half of a pair that waits for the second, and the
first problem of a reader that keeps the text. -/
structure QuotedState where
  seen : List Char
  waiting : Option Nat
  problem : Option Break

namespace QuotedState

/-- The state at the opening quote. -/
def start : QuotedState := ⟨[], none, none⟩

/-- Notes a problem of a keeping reader, unless there is one already. -/
def note (s : QuotedState) (b : Break) : QuotedState :=
  { s with waiting := none, problem := s.problem.or (some b) }

/-- Gives up waiting for the second half of a pair. -/
def settle (s : QuotedState) : QuotedState :=
  if s.waiting.isSome then s.note .malformed else s

/-- Takes a character that is not a half of a pair. -/
def push (s : QuotedState) (c : Char) : QuotedState :=
  let s := s.settle
  { s with seen := c :: s.seen }

/-- Takes the number of an escape. -/
def unit (s : QuotedState) (n : Nat) : QuotedState :=
  match s.waiting with
  | some high =>
      if isLowHalf n then { s with seen := joinHalves high n :: s.seen, waiting := none }
      else s.note .malformed
  | none =>
      if isLowHalf n then s.note .malformed
      else if isHighHalf n then { s with waiting := some n }
      else { s with seen := Char.ofNat n :: s.seen }

/-- The text breaks off for both readers; the keeping one may have had a problem
before. -/
def tear (s : QuotedState) (b : Break) : Quoted :=
  .torn (s.problem.getD b) (some b)

/-- The text ends at its closing quote. -/
def close (s : QuotedState) : Quoted :=
  match s.settle.problem with
  | none => .plain (String.ofList s.seen.reverse)
  | some b => .torn b none

end QuotedState

/-- The bytes that characters take in a text. -/
def byteCount (cs : List Char) : Nat :=
  (cs.map Char.utf8Size).foldr (· + ·) 0

/-- Reads on to the closing quote. -/
def readQuotedFrom (s : QuotedState) : List Char → Quoted × List Char
  | [] => (s.tear .truncated, [])
  | '"' :: rest => (s.close, rest)
  | '\\' :: 'u' :: a :: b :: c :: d :: rest =>
      match hexUnit? a b c d with
      | some n => readQuotedFrom (s.unit n) rest
      | none => (s.tear .malformed, [])
  | '\\' :: 'u' :: rest =>
      -- fewer than four characters are left; their bytes may still be four
      ((if byteCount rest < 4 then s.tear .truncated else s.tear .malformed), [])
  | ['\\'] => (s.tear .truncated, [])
  | '\\' :: c :: rest =>
      match shortEscape? c with
      | some e => readQuotedFrom (s.push e) rest
      | none => (s.settle.tear .malformed, [])
  | c :: rest =>
      if c.toNat < 0x20 then (s.settle.tear .malformed, [])
      else readQuotedFrom (s.push c) rest

/-- Reads the text after an opening quote. -/
def readQuoted (cs : List Char) : Quoted × List Char :=
  readQuotedFrom .start cs

theorem readQuotedFrom_length_le (s : QuotedState) (cs : List Char) :
    (readQuotedFrom s cs).2.length ≤ cs.length := by
  fun_induction readQuotedFrom s cs <;> simp_all <;> omega

theorem readQuoted_length_le (cs : List Char) : (readQuoted cs).2.length ≤ cs.length :=
  readQuotedFrom_length_le _ cs

end CiPipeline.Json
