/-
  CiPipeline.Regex.Standard
  ─────────────────────────
  **The engine that searches by partial derivatives.**

  It knows what `Regex.Names` has names for, and it estimates how large the automaton of a
  pattern would be (`Expr.weight`), so it is one engine among others: whatever is said of
  them all is said with `Engine` as a parameter, and this one is for running.
-/
import CiPipeline.Regex.Matching
import CiPipeline.Regex.Meaning

namespace CiPipeline.Regex

/-- The engine that is taken unless there is another one: patterns are read as expressions,
which are searched for by their partial derivatives. -/
instance Engine.standard : Engine where
  Program := Expr
  read? := Expr.ofPattern?
  finds := Expr.search
  Matches r front part back := r.Matches front.getLast? part back.head?

end CiPipeline.Regex
