/-
  CiPipeline.Regex.Reader
  ───────────────────────
  **Reading a pattern.**

  A pattern is read from left to right into its tree; whatever is not complete or
  not known is refused.  Where the flag for verbose patterns holds, blanks and
  comments are passed over between the pieces.  The fuel of the two recursive
  readers is the length of the pattern: every call takes at least one character,
  so it never runs out.
-/
import CiPipeline.Regex.Engine
import CiPipeline.Regex.Names

namespace CiPipeline.Regex

/-! ## §1. Blanks, runs and numbers. -/

/-- The text after leading blanks and comments; a comment reaches to the end of
its line. -/
def dropSpace (inComment : Bool) : List Char → List Char
  | [] => []
  | c :: rest =>
      if inComment then dropSpace (c != '\n') rest
      else if Text.isBlank c then dropSpace false rest
      else if c = '#' then dropSpace true rest
      else c :: rest

/-- In a verbose pattern, the text after leading blanks and comments. -/
def skip (verbose : Bool) (cs : List Char) : List Char :=
  if verbose then dropSpace false cs else cs

/-- The leading characters with a property, and the text after them; in a verbose
pattern blanks and comments may stand between them. -/
def spanRun (p : Char → Bool) (verbose inComment : Bool) : List Char → List Char × List Char
  | [] => ([], [])
  | c :: rest =>
      if inComment then spanRun p verbose (c != '\n') rest
      else if p c then
        let (run, after) := spanRun p verbose false rest
        (c :: run, after)
      else if verbose && Text.isBlank c then spanRun p verbose false rest
      else if verbose && c = '#' then spanRun p verbose true rest
      else ([], c :: rest)

/-- The characters up to a closing brace, and the text after it. -/
def untilBrace (verbose inComment : Bool) : List Char → Option (List Char × List Char)
  | [] => none
  | c :: rest =>
      if inComment then untilBrace verbose (c != '\n') rest
      else if verbose && Text.isBlank c then untilBrace verbose false rest
      else if verbose && c = '#' then untilBrace verbose true rest
      else if c = '\x7d' then some ([], rest)
      else (untilBrace verbose false rest).map fun (cs, after) => (c :: cs, after)

/-- The value of a digit in base sixteen. -/
def hexDigit? (c : Char) : Option Nat :=
  if c.isDigit then some (c.toNat - '0'.toNat)
  else if 'a' ≤ c ∧ c ≤ 'f' then some (c.toNat - 'a'.toNat + 10)
  else if 'A' ≤ c ∧ c ≤ 'F' then some (c.toNat - 'A'.toNat + 10)
  else none

/-- The character whose code point hexadecimal digits stand for. -/
def charOfHex? (digits : List Char) : Option Char := do
  let values ← digits.mapM hexDigit?
  guard !values.isEmpty
  let n := values.foldl (fun n d => n * 16 + d) 0
  if h : n.isValidChar then some (Char.ofNatAux n h) else none

/-- A count of repetitions, which has to fit 32 bits; blanks may stand around it. -/
def readCount (verbose : Bool) (cs : List Char) : Option (Nat × List Char) :=
  let (digits, after) := spanRun Char.isDigit verbose false (cs.dropWhile Text.isBlank)
  let n := digits.foldl (fun n c => n * 10 + (c.toNat - '0'.toNat)) 0
  if digits.isEmpty || n ≥ Nat.pow 2 32 then none
  else some (n, skip verbose (after.dropWhile Text.isBlank))

/-- The bounds between braces, and the text after the closing one. -/
def readBounds (verbose : Bool) (cs : List Char) : Option (Nat × Option Nat × List Char) := do
  let (least, cs) ← readCount verbose (skip verbose cs)
  match cs with
  | '\x7d' :: rest => some (least, some least, rest)
  | ',' :: rest =>
      match skip verbose rest with
      | '\x7d' :: rest => some (least, none, rest)
      | cs => do
          let (most, cs) ← readCount verbose cs
          match cs with
          | '\x7d' :: rest => if least ≤ most then some (least, some most, rest) else none
          | _ => none
  | _ => none

/-! ## §2. Escapes. -/

/-- The character stands for itself after a backslash. -/
def isEscapable (c : Char) : Bool :=
  isMeta c || (c.toNat < 128 && !c.isAlphanum && c != '<' && c != '>')

/-- Exactly so many hexadecimal digits, and the text after them. -/
def spanHex (verbose : Bool) : Nat → List Char → Option (List Char × List Char)
  | 0, cs => some ([], cs)
  | n + 1, cs =>
      match cs with
      | [] => none
      | c :: rest => (spanHex verbose n (skip verbose rest)).map fun (ds, after) => (c :: ds, after)

/-- A character by its code point: between braces, or in a fixed count of digits. -/
def readHex (verbose : Bool) (count : Nat) (cs : List Char) : Option (Tree × List Char) :=
  match skip verbose cs with
  | '\x7b' :: rest => do
      let (digits, after) ← untilBrace verbose false rest
      let c ← charOfHex? digits
      some (.literal ⟨c, false⟩, skip verbose after)
  | cs => do
      let (digits, after) ← spanHex verbose count cs
      let c ← charOfHex? digits
      some (.literal ⟨c, count = 2⟩, after)

/-- A property: between braces, or named by one letter. -/
def readProperty (verbose negated : Bool) (cs : List Char) : Option (Tree × List Char) :=
  match skip verbose cs with
  | [] => none
  | c :: rest =>
      if c = '\x7b' then do
        let (name, after) ← untilBrace verbose false rest
        let (p, unequal) ← property? name
        some (.property p (negated != unequal), after)
      else if c = '\\' then none
      else (propertyOfName? (normalName [c])).map fun p =>
        (.property p negated, skip verbose rest)

/-- A character of the name of a boundary of words. -/
def isBoundaryLetter (c : Char) : Bool := c.isAlpha || c = '-'

/-- The boundary of words that is named between braces. -/
def namedBoundary? : String → Option Anchor
  | "start" => some .wordStart
  | "end" => some .wordEnd
  | "start-half" => some .wordStartHalf
  | "end-half" => some .wordEndHalf
  | _ => none

/-- A boundary of words; braces after it name another kind, unless they are the
bounds of a repetition. -/
def readBoundary (verbose : Bool) (cs : List Char) : Option (Tree × List Char) :=
  match cs with
  | '\x7b' :: rest =>
      match skip verbose rest with
      | [] => none
      | c :: _ =>
          if isBoundaryLetter c then
            match spanRun isBoundaryLetter verbose false rest with
            | (name, '\x7d' :: after) =>
                (namedBoundary? (String.ofList name)).map fun a => (.anchor a, after)
            | _ => none
          else some (.anchor .wordBoundary, cs)
  | cs => some (.anchor .wordBoundary, cs)

/-- The escapes of one letter that stand for a control character. -/
def controlEscape? : Char → Option Char
  | 'a' => some '\x07'
  | 'f' => some '\x0c'
  | 't' => some '\t'
  | 'n' => some '\n'
  | 'r' => some '\r'
  | 'v' => some '\x0b'
  | _ => none

/-- What a backslash and the text after it stand for. -/
def readEscape (verbose : Bool) : List Char → Option (Tree × List Char)
  | [] => none
  | c :: rest =>
      match c with
      | 'x' => readHex verbose 2 rest
      | 'u' => readHex verbose 4 rest
      | 'U' => readHex verbose 8 rest
      | 'p' => readProperty verbose false rest
      | 'P' => readProperty verbose true rest
      | 'd' => some (.letter .digit false, rest)
      | 'D' => some (.letter .digit true, rest)
      | 's' => some (.letter .blank false, rest)
      | 'S' => some (.letter .blank true, rest)
      | 'w' => some (.letter .word false, rest)
      | 'W' => some (.letter .word true, rest)
      | 'A' => some (.anchor .textStart, rest)
      | 'z' => some (.anchor .textEnd, rest)
      | 'b' => readBoundary verbose rest
      | 'B' => some (.anchor .notWordBoundary, rest)
      | '<' => some (.anchor .wordStart, rest)
      | '>' => some (.anchor .wordEnd, rest)
      | c =>
          if isEscapable c then some (.literal ⟨c, false⟩, rest)
          else (controlEscape? c).map fun c => (.literal ⟨c, false⟩, rest)

/-! ## §3. Classes. -/

/-- A class with a name, after its opening bracket. -/
def readNamedClass : List Char → Option (ClassTree × List Char)
  | ':' :: rest =>
      let negated := rest.head? = some '^'
      let rest := if negated then rest.tail else rest
      match rest.dropWhile (· != ':') with
      | ':' :: ']' :: after =>
          (namedClass? (String.ofList (rest.takeWhile (· != ':')))).map fun ranges =>
            (.named ranges negated, after)
      | _ => none
  | _ => none

/-- One character of a class, or what an escape stands for. -/
def readClassPart (verbose : Bool) : List Char → Option (Tree × List Char)
  | [] => none
  | '\\' :: rest => readEscape verbose rest
  | c :: rest => some (.literal ⟨c, false⟩, rest)

/-- A piece of a pattern as a part of a class; assertions are none. -/
def ClassTree.ofTree? : Tree → Option ClassTree
  | .literal l => some (.literal l)
  | .letter kind negated => some (.letter kind negated)
  | .property p negated => some (.property p negated)
  | _ => none

/-- One part of a class: a character, a range, or another class by an escape. -/
def readRange (verbose : Bool) (cs : List Char) : Option (ClassTree × List Char) := do
  let (first, after) ← readClassPart verbose cs
  match skip verbose after with
  | [] => none
  | '-' :: rest =>
      match skip verbose rest with
      | ']' :: _ | '-' :: _ => (ClassTree.ofTree? first).map fun part => (part, '-' :: rest)
      | cs => do
          let (second, after) ← readClassPart verbose cs
          match first, second with
          | .literal low, .literal high =>
              if low.char ≤ high.char then some (.range low high, after) else none
          | _, _ => none
  | after => (ClassTree.ofTree? first).map fun part => (part, after)

/-- The left side of an operation that waits for its right side. -/
abbrev Pending := Option (ClassOp × ClassTree)

/-- Gives a waiting operation its right side. -/
def Pending.complete (right : ClassTree) : Pending → ClassTree
  | none => right
  | some (kind, left) => .op kind left right

/-- Reads a class after its opening bracket. -/
def readClass (fuel : Nat) (verbose : Bool) (cs : List Char) : Option (ClassTree × List Char) :=
  match fuel with
  | 0 => none
  | fuel + 1 =>
      let cs := skip verbose cs
      let negated := cs.head? = some '^'
      let cs := if negated then skip verbose cs.tail else cs
      -- hyphens at the start stand for themselves, and so does a bracket right there
      let (hyphens, cs) := spanRun (· = '-') verbose false cs
      let parts := hyphens.map fun _ => ClassTree.literal ⟨'-', false⟩
      match parts, cs with
      | _, [] => none
      | [], ']' :: rest => loop fuel negated none [.literal ⟨']', false⟩] rest
      | parts, cs => loop fuel negated none parts.reverse cs
  where
  /-- Reads the parts of a class up to its closing bracket; the latest one is the
  first of `parts`. -/
  loop (fuel : Nat) (negated : Bool) (pending : Pending) (parts : List ClassTree)
      (cs : List Char) : Option (ClassTree × List Char) :=
    match fuel with
    | 0 => none
    | fuel + 1 =>
        let operand := pending.complete (.ofParts parts.reverse)
        match skip verbose cs with
        | [] => none
        | ']' :: rest => some (.bracket negated operand, rest)
        | '&' :: '&' :: rest => loop fuel negated (some (.inter, operand)) [] rest
        | '-' :: '-' :: rest => loop fuel negated (some (.diff, operand)) [] rest
        | '~' :: '~' :: rest => loop fuel negated (some (.symmDiff, operand)) [] rest
        | '[' :: rest =>
            match readNamedClass rest with
            | some (part, after) => loop fuel negated pending (part :: parts) after
            | none =>
                match readClass fuel verbose rest with
                | some (part, after) => loop fuel negated pending (part :: parts) after
                | none => none
        | cs =>
            match readRange verbose cs with
            | some (part, after) => loop fuel negated pending (part :: parts) after
            | none => none

/-! ## §4. Groups. -/

/-- Flags up to a colon or a closing parenthesis: each at most once, with at most
one sign before those that are cleared, and one of them after it. -/
def readFlags (cleared dangling : Bool) (seen : FlagChanges) :
    List Char → Option (FlagChanges × Char × List Char)
  | [] => none
  | c :: rest =>
      if c = ':' ∨ c = ')' then
        if dangling then none else some (seen.reverse, c, rest)
      else if c = '-' then
        if cleared then none else readFlags true true seen rest
      else
        match Flag.ofLetter? c with
        | none => none
        | some f =>
            if seen.any (·.1 = f) then none
            else readFlags cleared false ((f, !cleared) :: seen) rest

/-- A character that may stand in the name of a group; the first one is a letter
or an underscore. -/
def isNameChar (first : Bool) (c : Char) : Bool :=
  c = '_' || Text.isLetter c ||
    (!first && (c = '.' || c = '[' || c = ']' || Text.isNumeric c))

/-- The name of a group, up to its closing angle bracket. -/
def readGroupName (cs : List Char) : Option (String × List Char) :=
  match cs.takeWhile (· != '>'), cs.dropWhile (· != '>') with
  | c :: name, _ :: after =>
      if isNameChar true c && name.all (isNameChar false) then
        some (String.ofList (c :: name), after)
      else none
  | _, _ => none

/-- What an opening parenthesis starts. -/
inductive GroupHead where
  /-- Flags for the rest of the surrounding group. -/
  | setFlags (changes : FlagChanges)
  /-- A group, with flags of its own and with its name if it has one. -/
  | group (changes : FlagChanges) (name : Option String)

/-- Reads what stands after an opening parenthesis before the pieces of the group. -/
def readGroupHead (cs : List Char) : Option (GroupHead × List Char) :=
  match cs with
  | '?' :: 'P' :: '<' :: rest | '?' :: '<' :: rest =>
      (readGroupName rest).map fun (name, after) => (.group [] (some name), after)
  | '?' :: rest =>
      match readFlags false false [] rest with
      | some (changes, ':', after) => some (.group changes none, after)
      | some (changes, _, after) =>
          if changes.isEmpty then none else some (.setFlags changes, after)
      | none => none
  | cs => some (.group [] none, cs)

/-! ## §5. Patterns. -/

/-- Where the reading of a pattern stands: what is left, whether blanks are passed
over, and the names of the groups so far. -/
structure Scan where
  rest : List Char
  verbose : Bool
  names : List String

/-- Repeats the latest piece, if it is one that can be. -/
def repeatLatest (items : List Tree) (least : Nat) (most : Option Nat) : Option (List Tree) :=
  match items with
  | [] => none
  | .flags _ :: _ => none
  | item :: items => some (.times item least most :: items)

/-- The text after the mark of a lazy repetition, if there is one. -/
def dropLazy (cs : List Char) : List Char :=
  if cs.head? = some '?' then cs.tail else cs

/-- Reads branches up to a closing parenthesis or the end of the pattern; the
latest branch is the first of `branches`, and the latest piece of the present one
the first of `items`. -/
def readBranches (fuel : Nat) (scan : Scan) (branches items : List Tree) :
    Option (Tree × Scan) :=
  match fuel with
  | 0 => none
  | fuel + 1 =>
      let verbose := scan.verbose
      let cs := skip verbose scan.rest
      let continueAt := fun (items : List Tree) (rest : List Char) =>
        readBranches fuel { scan with rest := rest } branches items
      let repeated := fun (least : Nat) (most : Option Nat) (rest : List Char) =>
        match repeatLatest items least most with
        | some items => continueAt items (dropLazy rest)
        | none => none
      let finished := (Tree.ofItems items.reverse :: branches).reverse
      match cs with
      | [] => some (.ofBranches finished, { scan with rest := [] })
      | c :: rest =>
          match c with
          | ')' => some (.ofBranches finished, { scan with rest := cs })
          | '|' =>
              readBranches fuel { scan with rest := rest } (.ofItems items.reverse :: branches) []
          | '(' =>
              match readGroupHead (skip verbose rest) with
              | none => none
              | some (.setFlags changes, after) =>
                  readBranches fuel
                    { scan with rest := after, verbose := (changes.get? .verbose).getD verbose }
                    branches (.flags changes :: items)
              | some (.group changes name, after) =>
                  if name.any scan.names.contains then none
                  else
                    let inside : Scan :=
                      ⟨after, (changes.get? .verbose).getD verbose, name.toList ++ scan.names⟩
                    match readBranches fuel inside [] [] with
                    | some (body, ⟨')' :: after, _, names⟩) =>
                        readBranches fuel ⟨after, verbose, names⟩ branches
                          (.group changes body :: items)
                    | _ => none
          | '[' =>
              match readClass (2 * rest.length + 2) verbose rest with
              | some (.bracket negated inner, after) =>
                  continueAt (.bracket negated inner :: items) after
              | _ => none
          | '?' => repeated 0 (some 1) rest
          | '*' => repeated 0 none rest
          | '+' => repeated 1 none rest
          | '\x7b' =>
              match readBounds verbose rest with
              | some (least, most, after) => repeated least most (skip verbose after)
              | none => none
          | '\\' =>
              match readEscape verbose rest with
              | some (piece, after) => continueAt (piece :: items) after
              | none => none
          | '.' => continueAt (.dot :: items) rest
          | '^' => continueAt (.anchor .caret :: items) rest
          | '$' => continueAt (.anchor .dollar :: items) rest
          | c => continueAt (.literal ⟨c, false⟩ :: items) rest

/-- Reads a whole pattern; nothing if it is not well-formed. -/
def Tree.ofText? (pattern : List Char) : Option Tree :=
  match readBranches (pattern.length + 1) ⟨pattern, false, []⟩ [] [] with
  | some (tree, scan) =>
      if scan.rest.isEmpty && tree.depth ≤ nestingLimit then some tree else none
  | none => none

end CiPipeline.Regex
