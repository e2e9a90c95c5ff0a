/-
  CiPipeline.Regex.Engine
  ───────────────────────
  **Engines for regular expressions.**

  Patterns are read, and texts are searched for them, by an engine; all that looks for
  patterns has the engine for a parameter.  What is relied on of an engine is told by
  `Engine.Lawful`: a search is not anchored, and a plain pattern, such as an escaped text
  between the two ends, matches piece by piece.  Everything else about patterns is left to
  the engine, that is which of them it reads and what it takes them for.
-/

namespace CiPipeline.Regex

/-! ## §1. Escaped texts. -/

/-- Punctuation that has, or may get, a meaning of its own. -/
def isMeta (c : Char) : Bool :=
  "\\.+*?()|[]\x7b\x7d^$#&-~".toList.contains c

/-- The pattern that matches a text alone: a backslash before every character that has a
meaning of its own. -/
def escape (text : List Char) : List Char :=
  text.flatMap fun c => if isMeta c then ['\\', c] else [c]

/-! ## §2. Plain patterns. -/

/-- The pieces of a plain pattern. -/
inductive Piece where
  /-- The start of the text. -/
  | textStart
  /-- The end of the text. -/
  | textEnd
  /-- Characters that stand for themselves. -/
  | text (cs : List Char)
  /-- Any run of characters of one line, also an empty one. -/
  | run
  deriving DecidableEq, Repr

namespace Piece

/-- How a piece is written. -/
def written : Piece → List Char
  | .textStart => ['^']
  | .textEnd => ['$']
  | .text cs => escape cs
  | .run => ['.', '*']

/-- A piece matches a part of a text between what stands in front of it and behind it. -/
def Matches : Piece → (front part back : List Char) → Prop
  | .textStart, front, part, _ => part = [] ∧ front = []
  | .textEnd, _, part, back => part = [] ∧ back = []
  | .text cs, _, part, _ => part = cs
  | .run, _, part, _ => ∀ c ∈ part, c ≠ '\n'

/-- Pieces match a part of a text one after the other. -/
def AllMatch : List Piece → (front part back : List Char) → Prop
  | [], _, part, _ => part = []
  | piece :: pieces, front, part, back => ∃ first rest, part = first ++ rest ∧
      piece.Matches front first (rest ++ back) ∧ AllMatch pieces (front ++ first) rest back

/-- The pattern that is written for pieces. -/
def pattern (pieces : List Piece) : String :=
  String.ofList (pieces.flatMap written)

end Piece

/-! ## §3. Engines. -/

/-- An engine for regular expressions. -/
class Engine where
  /-- What patterns are read as. -/
  Program : Type
  /-- The program of a pattern; nothing if the pattern is refused. -/
  read? (pattern : String) : Option Program
  /-- The program is found in a text. -/
  finds (program : Program) (text : List Char) : Bool
  /-- The program matches a part of a text between what stands in front of it and behind
  it. -/
  Matches (program : Program) (front part back : List Char) : Prop

namespace Engine

/-- A program matches some part of a text. -/
def Occurs [Engine] (program : Program) (text : List Char) : Prop :=
  ∃ front part back, text = front ++ part ++ back ∧ Matches program front part back

/-- What is relied on of an engine. -/
class Lawful [Engine] : Prop where
  /-- **A search is not anchored**: it finds what a program matches anywhere in the text. -/
  finds_iff {pattern : String} {program : Program} (h : read? pattern = some program)
    (text : List Char) : finds program text = true ↔ Occurs program text
  /-- **A plain pattern matches piece by piece**; escaped characters stand for themselves. -/
  matches_iff {pieces : List Piece} {program : Program}
    (h : read? (Piece.pattern pieces) = some program) (front part back : List Char) :
    Matches program front part back ↔ Piece.AllMatch pieces front part back

end Engine

end CiPipeline.Regex
