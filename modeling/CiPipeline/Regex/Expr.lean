/-
  CiPipeline.Regex.Expr
  ─────────────────────
  **Regular expressions, and their search by partial derivatives.**

  An expression is matched character by character.  What is left of it after a
  character is a list of expressions, its partial derivatives; each of them is
  built from pieces of the expression, so the list stays short however long the
  text is, and no choice is ever taken back.  An assertion looks at the two
  characters around a position, so both the empty match and the derivatives know
  the character before the position and the one after it.
-/
import CiPipeline.Regex.CharSet

namespace CiPipeline.Regex

/-! ## §1. Expressions. -/

/-- An assertion about a position of the text.  Those about words come in a
variant for the word characters of ASCII alone. -/
inductive Look where
  | textStart
  | textEnd
  | lineStart
  | lineEnd
  /-- Lines that end in a carriage return, a line feed, or both. -/
  | anyLineStart
  | anyLineEnd
  | wordBoundary (ascii : Bool)
  | notWordBoundary (ascii : Bool)
  | wordStart (ascii : Bool)
  | wordEnd (ascii : Bool)
  | wordStartHalf (ascii : Bool)
  | wordEndHalf (ascii : Bool)
  deriving DecidableEq, Repr

/-- A regular expression. -/
inductive Expr where
  | empty
  | chars (set : CharSet)
  | look (assertion : Look)
  | cat (first second : Expr)
  | alt (first second : Expr)
  /-- At least `least` times, and at most `most` times if there is a bound. -/
  | times (body : Expr) (least : Nat) (most : Option Nat)
  deriving DecidableEq, Repr

/-! ## §2. Assertions. -/

/-- Word characters of ASCII. -/
def isAsciiWord (c : Char) : Bool :=
  c.toNat < 128 && (c.isAlphanum || c = '_')

/-- There is a word character on a side of a position. -/
def isWordSide (ascii : Bool) : Option Char → Bool
  | none => false
  | some c => if ascii then isAsciiWord c else Text.isWordChar c

/-- The assertion holds between two characters (none at the ends of the text). -/
def Look.holds (before after : Option Char) : Look → Bool
  | .textStart => before.isNone
  | .textEnd => after.isNone
  | .lineStart => before.isNone || before = some '\n'
  | .lineEnd => after.isNone || after = some '\n'
  | .anyLineStart =>
      before.isNone || before = some '\n' || (before = some '\r' && after != some '\n')
  | .anyLineEnd =>
      after.isNone || after = some '\r' || (after = some '\n' && before != some '\r')
  | .wordBoundary ascii => isWordSide ascii before != isWordSide ascii after
  | .notWordBoundary ascii => isWordSide ascii before == isWordSide ascii after
  | .wordStart ascii => !isWordSide ascii before && isWordSide ascii after
  | .wordEnd ascii => isWordSide ascii before && !isWordSide ascii after
  | .wordStartHalf ascii => !isWordSide ascii before
  | .wordEndHalf ascii => !isWordSide ascii after

/-! ## §3. The empty match and the partial derivatives. -/

namespace Expr

/-- The expression matches the empty text between two characters. -/
def matchesEmpty (before after : Option Char) : Expr → Bool
  | .empty => true
  | .chars _ => false
  | .look a => a.holds before after
  | .cat r s => r.matchesEmpty before after && s.matchesEmpty before after
  | .alt r s => r.matchesEmpty before after || s.matchesEmpty before after
  | .times r least _ => least = 0 || r.matchesEmpty before after

/-- One expression followed by another. -/
def followedBy : Expr → Expr → Expr
  | .empty, s => s
  | r, s => .cat r s

/-- The expressions that may match what follows a character, which stands after
`before`.  A repeated expression that matches the empty text here may use up as
many of its repetitions as it likes before the character. -/
def derivatives (before : Option Char) (c : Char) : Expr → List Expr
  | .empty => []
  | .look _ => []
  | .chars set => if set.contains c then [.empty] else []
  | .alt r s => r.derivatives before c ++ s.derivatives before c
  | .cat r s =>
      let first := (r.derivatives before c).map (·.followedBy s)
      if r.matchesEmpty before (some c) then first ++ s.derivatives before c else first
  | .times r least most =>
      if most = some 0 then []
      else
        let least := if r.matchesEmpty before (some c) then 0 else least - 1
        (r.derivatives before c).map (·.followedBy (.times r least (most.map (· - 1))))

/-! ## §4. Searching. -/

/-- Some expression of a list matches at the end of a text, or after some of its
characters; at every position a match of `r` may start. -/
def searchFrom (r : Expr) (before : Option Char) (live : List Expr) : List Char → Bool
  | [] => live.any (·.matchesEmpty before none)
  | c :: rest =>
      live.any (·.matchesEmpty before (some c)) ||
        r.searchFrom (some c) (r :: live.flatMap (·.derivatives before c)).eraseDups rest

/-- The expression matches somewhere in a text. -/
def search (r : Expr) (text : List Char) : Bool :=
  r.searchFrom none [r] text

end Expr

end CiPipeline.Regex
