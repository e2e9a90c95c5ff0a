/-
  CiPipeline.Regex.Meaning
  ────────────────────────
  **What a written pattern means.**

  The flags hold from where they are set to the end of the surrounding group, so
  reading the meaning of a tree takes the flags from piece to piece and gives the
  old ones back after a group.  Without the flag for all of Unicode only sets of
  ASCII characters are left; a piece that would match a part of a character is
  refused, and so is a pattern whose automaton would be too large.
-/
import CiPipeline.Regex.Reader

namespace CiPipeline.Regex

/-! ## §1. Flags. -/

/-- The flags that decide what a piece means. -/
structure Flags where
  caseless : Bool
  multiLine : Bool
  dotAll : Bool
  unicode : Bool
  anyLineEnd : Bool
  deriving DecidableEq, Repr

namespace Flags

/-- The flags at the start of a pattern. -/
def standard : Flags := ⟨false, false, false, true, false⟩

/-- Sets or clears one flag.  Greed is about where a match ends and blanks are
gone once the pattern is read, so two of the flags change nothing here. -/
def set (f : Flags) : Flag → Bool → Flags
  | .caseless, b => { f with caseless := b }
  | .multiLine, b => { f with multiLine := b }
  | .dotAll, b => { f with dotAll := b }
  | .unicode, b => { f with unicode := b }
  | .anyLineEnd, b => { f with anyLineEnd := b }
  | .swapGreed, _ => f
  | .verbose, _ => f

/-- Sets and clears flags. -/
def apply (f : Flags) (changes : FlagChanges) : Flags :=
  changes.foldl (fun f c => f.set c.1 c.2) f

/-- A set of characters, with those that differ in case where case does not
matter. -/
def folded (f : Flags) (s : CharSet) : CharSet :=
  if f.caseless then if f.unicode then .caseless s else .asciiCaseless s else s

/-- The complement of a set, if asked for; without the flag for Unicode it would
hold parts of characters. -/
def negated? (f : Flags) (negated : Bool) (s : CharSet) : Option CharSet :=
  if negated then if f.unicode then some (.compl s) else none else some s

/-- The characters of a dot. -/
def dot (f : Flags) : CharSet :=
  if f.dotAll then .all
  else if f.anyLineEnd then .compl (.union (.single '\n') (.single '\r'))
  else .compl (.single '\n')

/-- The assertion that a mark stands for. -/
def look (f : Flags) : Anchor → Look
  | .caret =>
      if f.multiLine then if f.anyLineEnd then .anyLineStart else .lineStart else .textStart
  | .dollar =>
      if f.multiLine then if f.anyLineEnd then .anyLineEnd else .lineEnd else .textEnd
  | .textStart => .textStart
  | .textEnd => .textEnd
  | .wordBoundary => .wordBoundary !f.unicode
  | .notWordBoundary => .notWordBoundary !f.unicode
  | .wordStart => .wordStart !f.unicode
  | .wordEnd => .wordEnd !f.unicode
  | .wordStartHalf => .wordStartHalf !f.unicode
  | .wordEndHalf => .wordEndHalf !f.unicode

/-- The character of a literal.  Without the flag for Unicode, two hexadecimal
digits stand for one byte, which is a character in ASCII only. -/
def char? (f : Flags) (l : Literal) : Option Char :=
  if !f.unicode && l.byte && 128 ≤ l.char.toNat then none else some l.char

/-- The character of a literal in a class; without the flag for Unicode a class
has bytes for members. -/
def member? (f : Flags) (l : Literal) : Option Char :=
  if !f.unicode && 128 ≤ l.char.toNat then none else some l.char

end Flags

/-! ## §2. Classes. -/

/-- The union of ranges. -/
def CharSet.ofRanges (ranges : List (Char × Char)) : CharSet :=
  ranges.foldr (fun r s => .union (.range r.1 r.2) s) .none

/-- The set of a class that a letter names. -/
def LetterClass.set (unicode : Bool) : LetterClass → CharSet
  | .digit => if unicode then .property .digit else .range '0' '9'
  | .blank =>
      if unicode then .property .blank else .union (.range '\t' '\r') (.single ' ')
  | .word =>
      if unicode then .property .word
      else .ofRanges [('0', '9'), ('A', 'Z'), ('_', '_'), ('a', 'z')]

/-- The set of a property; there is none without the flag for Unicode. -/
def Flags.property? (f : Flags) (p : Property) (negated : Bool) : Option CharSet :=
  if f.unicode then f.negated? negated (f.folded (.property p)) else none

/-- The set that an operation makes of two. -/
def ClassOp.apply : ClassOp → CharSet → CharSet → CharSet
  | .inter, a, b => .inter a b
  | .diff, a, b => .diff a b
  | .symmDiff, a, b => .symmDiff a b

mutual

/-- The set of what stands between the brackets of a class. -/
def ClassTree.set? (f : Flags) : ClassTree → Option CharSet
  | .nothing => some .none
  | .literal l => (f.member? l).map .single
  | .range low high =>
      match f.member? low, f.member? high with
      | some low, some high => some (.range low high)
      | _, _ => none
  | .named ranges negated => f.negated? negated (f.folded (.ofRanges ranges))
  | .letter kind negated => f.negated? negated (kind.set f.unicode)
  | .property p negated => f.property? p negated
  | .bracket negated inner =>
      match inner.set? f with
      | some s => f.negated? negated (f.folded s)
      | none => none
  | .union parts => ClassTree.unionSet? f parts
  | .op kind left right =>
      match left.set? f, right.set? f with
      | some a, some b => some (kind.apply (f.folded a) (f.folded b))
      | _, _ => none

/-- The union of the sets of some parts. -/
def ClassTree.unionSet? (f : Flags) : List ClassTree → Option CharSet
  | [] => some .none
  | part :: parts =>
      match part.set? f, ClassTree.unionSet? f parts with
      | some a, some b => some (.union a b)
      | _, _ => none

end

/-! ## §3. Pieces. -/

mutual

/-- The expression of a tree, and the flags that hold after it. -/
def Tree.expr? (f : Flags) : Tree → Option (Expr × Flags)
  | .empty => some (.empty, f)
  | .flags changes => some (.empty, f.apply changes)
  | .literal l => (f.char? l).map fun c => (.chars (f.folded (.single c)), f)
  | .dot => if f.unicode then some (.chars f.dot, f) else none
  | .anchor a => some (.look (f.look a), f)
  | .letter kind negated =>
      (f.negated? negated (kind.set f.unicode)).map fun s => (.chars s, f)
  | .property p negated => (f.property? p negated).map fun s => (.chars s, f)
  | .bracket negated inner =>
      match inner.set? f with
      | some s => (f.negated? negated (f.folded s)).map fun s => (.chars s, f)
      | none => none
  | .times body least most =>
      match body.expr? f with
      | some (r, f) => some (.times r least most, f)
      | none => none
  | .group changes body =>
      match body.expr? (f.apply changes) with
      | some (r, _) => some (r, f)
      | none => none
  | .alt branches => Tree.altExpr? f branches
  | .cat items => Tree.catExpr? f items

/-- The expression of branches beside each other. -/
def Tree.altExpr? (f : Flags) : List Tree → Option (Expr × Flags)
  | [] => some (.chars .none, f)
  | branch :: branches =>
      match branch.expr? f with
      | none => none
      | some (r, f) =>
          match Tree.altExpr? f branches with
          | none => none
          | some (s, f) => some (.alt r s, f)

/-- The expression of pieces one after the other. -/
def Tree.catExpr? (f : Flags) : List Tree → Option (Expr × Flags)
  | [] => some (.empty, f)
  | item :: items =>
      match item.expr? f with
      | none => none
      | some (r, f) =>
          match Tree.catExpr? f items with
          | none => none
          | some (s, f) => some (.cat r s, f)

end

/-! ## §4. Size. -/

/-- The bytes that a state of an automaton takes. -/
def stateSize : Nat := 32

/-- About the bytes that a property takes in an automaton. -/
def Property.weight : Property → Nat
  | .any => 12 * stateSize
  | .ascii => stateSize
  | .blank => 16 * stateSize
  | .digit => 160 * stateSize
  | _ => 640 * stateSize

/-- About the bytes that a set of characters takes in an automaton. -/
def CharSet.weight : CharSet → Nat
  | .none => stateSize
  | .range low high => if low = high then low.utf8Size * stateSize else 2 * stateSize
  | .property p => p.weight
  | .union a b => a.weight + b.weight
  | .inter a b => min a.weight b.weight
  | .diff a b => a.weight + b.weight
  | .compl a => a.weight + 8 * stateSize
  | .caseless a => 2 * a.weight
  | .asciiCaseless a => 2 * a.weight

/-- About the bytes that an expression takes as an automaton, in which every
repetition up to a bound has states of its own. -/
def Expr.weight : Expr → Nat
  | .empty => 0
  | .chars s => s.weight
  | .look _ => stateSize
  | .cat r s => r.weight + s.weight
  | .alt r s => r.weight + s.weight + stateSize
  | .times r least none => (least + 1) * (r.weight + stateSize)
  | .times r least (some most) => max least most * (r.weight + stateSize)

/-- The greatest size of an automaton, ten mebibytes. -/
def sizeLimit : Nat := 10 * Nat.pow 2 20

/-- The expression that a pattern means; nothing if the pattern is not well-formed
or its automaton too large. -/
def Expr.ofPattern? (pattern : String) : Option Expr :=
  match Tree.ofText? pattern.toList with
  | none => none
  | some tree =>
      match tree.expr? .standard with
      | none => none
      | some (r, _) => if r.weight ≤ sizeLimit then some r else none

end CiPipeline.Regex
