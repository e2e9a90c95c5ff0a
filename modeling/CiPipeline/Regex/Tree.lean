/-
  CiPipeline.Regex.Tree
  ─────────────────────
  **The written structure of a pattern.**

  The tree of a pattern keeps what is written: groups, changes of flags, classes
  with their nesting.  What it means depends on the flags that hold where a piece
  stands.  A pattern may not nest deeper than a limit; only pieces with parts
  count.
-/
import CiPipeline.Regex.Expr

namespace CiPipeline.Regex

/-- The flags of a pattern. -/
inductive Flag where
  | caseless
  | multiLine
  | dotAll
  | swapGreed
  | unicode
  | anyLineEnd
  | verbose
  deriving DecidableEq, Repr

/-- The letter of a flag. -/
def Flag.ofLetter? : Char → Option Flag
  | 'i' => some .caseless
  | 'm' => some .multiLine
  | 's' => some .dotAll
  | 'U' => some .swapGreed
  | 'u' => some .unicode
  | 'R' => some .anyLineEnd
  | 'x' => some .verbose
  | _ => none

/-- Flags that are set or cleared, in the order in which they are written. -/
abbrev FlagChanges := List (Flag × Bool)

/-- What a change says about a flag. -/
def FlagChanges.get? (changes : FlagChanges) (f : Flag) : Option Bool :=
  (changes.find? fun c => c.1 = f).map (·.2)

/-- The assertions that are written with a mark of their own. -/
inductive Anchor where
  | caret
  | dollar
  | textStart
  | textEnd
  | wordBoundary
  | notWordBoundary
  | wordStart
  | wordEnd
  | wordStartHalf
  | wordEndHalf
  deriving DecidableEq, Repr

/-- The classes that a letter after a backslash names. -/
inductive LetterClass where
  | digit
  | blank
  | word
  deriving DecidableEq, Repr

/-- The operations between the parts of a class. -/
inductive ClassOp where
  | inter
  | diff
  | symmDiff
  deriving DecidableEq, Repr

/-- A character as it is written; `byte` marks the one that two hexadecimal digits
stand for. -/
structure Literal where
  char : Char
  byte : Bool
  deriving DecidableEq, Repr

/-- What stands between the brackets of a class. -/
inductive ClassTree where
  | nothing
  | literal (l : Literal)
  | range (low high : Literal)
  /-- A class with a name, as in `[:alpha:]`: the ranges of ASCII that it holds. -/
  | named (ranges : List (Char × Char)) (negated : Bool)
  | letter (kind : LetterClass) (negated : Bool)
  | property (p : Property) (negated : Bool)
  | bracket (negated : Bool) (inner : ClassTree)
  | union (parts : List ClassTree)
  | op (kind : ClassOp) (left right : ClassTree)

/-- A pattern as it is written. -/
inductive Tree where
  | empty
  | flags (changes : FlagChanges)
  | literal (l : Literal)
  | dot
  | anchor (a : Anchor)
  | letter (kind : LetterClass) (negated : Bool)
  | property (p : Property) (negated : Bool)
  | bracket (negated : Bool) (inner : ClassTree)
  | times (body : Tree) (least : Nat) (most : Option Nat)
  | group (changes : FlagChanges) (body : Tree)
  | alt (branches : List Tree)
  | cat (items : List Tree)
  deriving Inhabited

/-! ## §1. Depth. -/

mutual

/-- How deep the parts of a class are nested. -/
def ClassTree.depth : ClassTree → Nat
  | .bracket _ inner => inner.depth + 1
  | .union parts => ClassTree.depthList parts + 1
  | .op _ left right => max left.depth right.depth + 1
  | _ => 0

/-- The greatest depth of a list of parts. -/
def ClassTree.depthList : List ClassTree → Nat
  | [] => 0
  | part :: parts => max part.depth (ClassTree.depthList parts)

end

mutual

/-- How deep the pieces of a pattern are nested. -/
def Tree.depth : Tree → Nat
  | .bracket _ inner => inner.depth + 1
  | .times body _ _ => body.depth + 1
  | .group _ body => body.depth + 1
  | .alt branches => Tree.depthList branches + 1
  | .cat items => Tree.depthList items + 1
  | _ => 0

/-- The greatest depth of a list of pieces. -/
def Tree.depthList : List Tree → Nat
  | [] => 0
  | piece :: pieces => max piece.depth (Tree.depthList pieces)

end

/-- The greatest depth that a pattern may have. -/
def nestingLimit : Nat := 250

/-! ## §2. Joining pieces. -/

/-- Pieces that stand one after the other. -/
def Tree.ofItems : List Tree → Tree
  | [] => .empty
  | [item] => item
  | items => .cat items

/-- Branches that stand beside each other. -/
def Tree.ofBranches : List Tree → Tree
  | [branch] => branch
  | branches => .alt branches

/-- Parts of a class that stand beside each other. -/
def ClassTree.ofParts : List ClassTree → ClassTree
  | [] => .nothing
  | [part] => part
  | parts => .union parts

end CiPipeline.Regex
