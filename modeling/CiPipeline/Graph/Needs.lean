/-
  CiPipeline.Graph.Needs
  ──────────────────────
  **Which needs of a job hold in a graph.**

  A job with more needs than the limit has none of them.  Otherwise a need holds
  if the job that it names is present, and of several needs of one job the first
  one counts.  One on a job that is not declared, or on one that is excluded
  unless the need is optional, is reported.
-/
import CiPipeline.Graph.Node
import CiPipeline.Graph.Survey

namespace CiPipeline.Graph

/-- The needs of a job that hold, and the problems of the others. -/
structure ResolvedNeeds where
  needs : List Edge
  problems : List Problem
  deriving DecidableEq

namespace ResolvedNeeds

/-- Resolves the next need of a job. -/
def add (standing : String → Standing) (job : String) (r : ResolvedNeeds) (n : Need) :
    ResolvedNeeds :=
  match standing n.job with
  | .undeclared => { r with problems := r.problems ++ [.undefinedNeed job n.job] }
  | .excluded =>
      if n.optional then r else { r with problems := r.problems ++ [.excludedNeed job n.job] }
  -- the first need of a job decides on its artifacts
  | .present =>
      if r.needs.any (·.job = n.job) then r
      else { r with needs := r.needs ++ [⟨n.job, n.artifacts⟩] }

/-- Resolves the needs of a job. -/
def of (standing : String → Standing) (maxNeeds : UInt64) (job : JobDefinition) : ResolvedNeeds :=
  if maxNeeds.toNat < job.needs.length then
    ⟨[], [.tooManyNeeds job.name maxNeeds.toNat job.needs.length]⟩
  else job.needs.foldl (add standing job.name) ⟨[], []⟩

end ResolvedNeeds

end CiPipeline.Graph
