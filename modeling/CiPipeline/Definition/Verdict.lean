/-
  CiPipeline.Definition.Verdict
  ─────────────────────────────
  **What rules say about a ref.**

  The first rule that applies decides.  A rule with a pattern that is no regular
  expression stops the search; rules behind the one that decides are not looked
  at.  A subject that is to run never is left out.
-/
import CiPipeline.Definition.Basic
import CiPipeline.Regex.Engine

namespace CiPipeline

open Regex (Engine)

/-- What rules say about a ref. -/
inductive Verdict where
  /-- The subject takes part and runs at a time. -/
  | included (w : When)
  | excluded
  /-- A rule has a pattern that is no regular expression. -/
  | invalidPattern (pattern : String)
  deriving DecidableEq, Repr, Inhabited

namespace Verdict

/-- The outcome for a subject that is to run at a time. -/
def ofWhen (w : When) : Verdict :=
  if w = .never then .excluded else .included w

end Verdict

namespace Rule

variable [Engine]

/-- The rule applies to a ref; nothing if its pattern is no regular expression. -/
def applies? (r : Rule) (refName : String) : Option Bool :=
  match r.ifRef with
  | none => some true
  | some pattern => (Engine.read? pattern).map (Engine.finds · refName.toList)

/-- What the first rule that applies says; without one the subject is left out. -/
def firstMatch (rules : List Rule) (refName : String) (default_ : When) : Verdict :=
  match rules with
  | [] => .excluded
  | r :: rest =>
      match r.applies? refName with
      -- there is a pattern here, since a rule without one always applies
      | none => .invalidPattern (r.ifRef.getD "")
      | some true => .ofWhen (r.when.getD default_)
      | some false => firstMatch rest refName default_

/-- What rules say about a ref; without any rule the subject runs at its own
time. -/
def judge (rules : List Rule) (refName : String) (default_ : When) : Verdict :=
  if rules.isEmpty then .ofWhen default_ else firstMatch rules refName default_

end Rule

end CiPipeline
