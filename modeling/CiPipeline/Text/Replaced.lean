/-
  CiPipeline.Text.Replaced
  ────────────────────────
  **Texts with one run of characters put for another.**

  The occurrences are taken from left to right, and the next one is looked for
  behind the last, so no two of them overlap.
-/

namespace CiPipeline.Text

/-- The text with `new` for every occurrence of `old`, which holds some character.
So many characters at the start still belong to the occurrence before. -/
def replaceFrom (old new : List Char) : Nat → List Char → List Char
  | _, [] => []
  | left + 1, _ :: rest => replaceFrom old new left rest
  | 0, c :: rest =>
      if old.isPrefixOf (c :: rest) then new ++ replaceFrom old new (old.length - 1) rest
      else c :: replaceFrom old new 0 rest

/-- The text with `new` for every occurrence of `old`. -/
def replaced (old new text : List Char) : List Char :=
  replaceFrom old new 0 text

end CiPipeline.Text
