/-
  CiPipeline.Chain.Expectation
  ────────────────────────────
  **What a run may be expected to have reached.**

  Each expectation is a test on the outcome of a run and on the creation that it
  leaves behind.
-/
import CiPipeline.Chain.Run

namespace CiPipeline

/-- The chain has halted after a link, with a message among the errors. -/
def Outcome.haltedWith (o : Outcome) (c : Creation) (link message : String) : Bool :=
  o.haltedAt = some link && c.pipeline.errors.contains message

namespace Creation

/-- A graph with stages of the given names, in order, is attached. -/
def hasStages (c : Creation) (names : List String) : Bool :=
  match c.graph with
  | none => false
  | some g => g.stages.map (·.name) = names

/-- A job of the attached graph has exactly the given needs, in order. -/
def hasNeeds (c : Creation) (job : String) (needs : List String) : Bool :=
  match c.graph.bind (·.job? job) with
  | none => false
  | some j => j.needs.map (·.job) = needs

/-- The pipeline is persisted. -/
def isCreated (c : Creation) : Bool :=
  c.pipeline.status = .created && c.pipeline.id.isSome

end Creation

end CiPipeline
