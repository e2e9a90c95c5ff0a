/-
  CiPipeline.Regex.Matching
  ─────────────────────────
  **What an expression matches.**

  It is said without derivatives, of a text that stands between two characters: the parts of
  a text see each other's ends, since assertions look at them.
-/
import CiPipeline.Regex.Expr

namespace CiPipeline.Regex

/-- A property of texts that stand between two characters (none at the ends of the whole
text). -/
abbrev Span := Option Char → List Char → Option Char → Prop

namespace Span

/-- A text of two parts; each part stands next to the other one. -/
def andThen (P Q : Span) : Span := fun before text after =>
  ∃ first second, text = first ++ second ∧
    P before first (second.head?.or after) ∧ Q (first.getLast?.or before) second after

/-- A text of so many parts. -/
def repeated (P : Span) : Nat → Span
  | 0 => fun _ text _ => text = []
  | n + 1 => P.andThen (P.repeated n)

end Span

namespace Expr

/-- The expression matches a text that stands between two characters. -/
def Matches : Expr → Span
  | .empty => fun _ text _ => text = []
  | .chars set => fun _ text _ => ∃ c, set.contains c = true ∧ text = [c]
  | .look a => fun before text after => text = [] ∧ a.holds before after = true
  | .cat r s => r.Matches.andThen s.Matches
  | .alt r s => fun before text after => r.Matches before text after ∨ s.Matches before text after
  | .times r least most => fun before text after =>
      ∃ n, least ≤ n ∧ (∀ m, most = some m → n ≤ m) ∧ r.Matches.repeated n before text after

end Expr

end CiPipeline.Regex
