/-
  CiPipeline.Ref.Glob
  ───────────────────
  **Names of refs with wildcards.**

  A star stands for any run of characters of one line, also an empty one; every
  other character stands for itself.  A glob is searched for as a regular
  expression: its text is escaped, `.*` is put for every star in the escaped text,
  and the whole stands between the start and the end of the text.
-/
import CiPipeline.Regex.Engine
import CiPipeline.Text.Replaced

namespace CiPipeline

open Regex (Engine)

/-- The regular expression that is written for a name with wildcards. -/
def Glob.written (pattern : String) : String :=
  let body := Text.replaced ['\\', '*'] ['.', '*'] (Regex.escape pattern.toList)
  String.ofList ('^' :: body ++ ['$'])

variable [Engine]

/-- A name with wildcards, such as `release-*`, with the program that it is searched as. -/
structure Glob where
  pattern : String
  program : Engine.Program
  compiled : Engine.read? (Glob.written pattern) = some program

namespace Glob

/-- The glob of a name with wildcards; nothing if what is written for it is refused. -/
def ofPattern? (pattern : String) : Option Glob :=
  match h : Engine.read? (written pattern) with
  | some program => some ⟨pattern, program, h⟩
  | none => none

/-- The glob matches a name. -/
def isMatch (g : Glob) (name : String) : Bool :=
  Engine.finds g.program name.toList

end Glob

end CiPipeline
