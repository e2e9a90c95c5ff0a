/-
  CiPipeline.Creation.Error
  ─────────────────────────
  **What aborts the creation of a pipeline.**

  Such an error is not the user's: it is never recorded on the pipeline.
-/
import CiPipeline.Store.Stores

namespace CiPipeline

/-- Why a creation is aborted. -/
inductive CreationError where
  /-- The creation has no definition. -/
  | missingDefinition
  /-- The creation has no graph. -/
  | missingGraph
  /-- There is no number for the pipeline. -/
  | allocation (cause : SequenceError)
  /-- The repository or the registry of refs fails. -/
  | persistence (cause : StoreError)
  deriving DecidableEq, Repr

/-- The message of an error. -/
def CreationError.message : CreationError → String
  | .missingDefinition => "missing configuration processor result"
  | .missingGraph => "missing pipeline seed"
  | .allocation cause => cause.message
  | .persistence cause => cause.message

end CiPipeline
