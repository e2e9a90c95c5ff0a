/-
  CiPipeline.Graph.Problem
  ────────────────────────
  **What can be wrong with a graph.**

  Each problem has a message, a stable code, and diagnostics: a hint how to mend
  it, if there is one, and the names that it is about.
-/
import CiPipeline.Json.Record

namespace CiPipeline.Graph

open Json (Codec Field Record)

/-- A structural problem of stages and jobs. -/
inductive Problem where
  /-- Two stages have one name. -/
  | duplicateStage (stage : String)
  /-- A stage asks for a position that another one has. -/
  | stagePosition (stage other : String) (position : UInt64)
  /-- A stage has two jobs of one name. -/
  | duplicateJob (stage job : String)
  /-- Two stages have jobs of one name. -/
  | duplicateAcross (job firstStage secondStage : String)
  /-- A job needs one that is not declared. -/
  | undefinedNeed (job need : String)
  /-- A job needs one that its rules exclude. -/
  | excludedNeed (job need : String)
  /-- A job needs more than the limit allows. -/
  | tooManyNeeds (job : String) (limit count : Nat)
  /-- A rule of a job has a pattern that is no regular expression. -/
  | rulePattern (job pattern : String)
  /-- Jobs that need each other in a ring; the first one stands at the end again. -/
  | cycle (path : List String)
  deriving DecidableEq, Repr

/-- Diagnostics of a problem. -/
structure Diagnosis where
  code : String
  fixHint : Option String
  context : Dict String
  deriving DecidableEq

namespace Diagnosis

/-- The diagnostics of a code. -/
def ofCode (code : String) : Diagnosis := ⟨code, none, .empty⟩

/-- The diagnostics with a hint. -/
def withHint (d : Diagnosis) (hint : String) : Diagnosis := { d with fixHint := some hint }

/-- The diagnostics with one more entry of the context. -/
def withContext (d : Diagnosis) (key value : String) : Diagnosis :=
  { d with context := d.context.insert key value }

/-- The fields of diagnostics. -/
def record :=
  Record.cons (.required "code" .string) <|
  .cons (.nullable "fix_hint" .string) <|
  .cons (.defaulted "context" Codec.string.dict .empty) <|
  .nil

/-- The written form of diagnostics. -/
def codec : Codec Diagnosis :=
  record.codec "SeedErrorInfo" (fun (code, hint, context, _) => ⟨code, hint, context⟩)
    (fun d => (d.code, d.fixHint, d.context, ()))

end Diagnosis

namespace Problem

/-- A ring of jobs, as it is shown. -/
def pathText (path : List String) : String := " -> ".intercalate path

/-- The message of a problem. -/
def message : Problem → String
  | .duplicateStage stage => s!"stage '{stage}' is defined more than once"
  | .stagePosition stage other position =>
      s!"stage '{stage}' has position {position}, which is already taken by stage '{other}'"
  | .duplicateJob stage job => s!"stage '{stage}' defines job '{job}' more than once"
  | .duplicateAcross job firstStage secondStage =>
      s!"job '{job}' is defined in both stage '{firstStage}' and stage '{secondStage}'"
  | .undefinedNeed job need =>
      s!"'{job}' job needs '{need}' job, but '{need}' does not exist in the pipeline"
  | .excludedNeed job need =>
      s!"'{job}' job needs '{need}' job, but '{need}' is not in the pipeline"
  | .tooManyNeeds job limit count =>
      s!"'{job}' job can only need {limit} others, but it needs {count}"
  | .rulePattern job pattern => s!"'{job}' has an invalid rule pattern '{pattern}'"
  | .cycle path => "dependency cycle detected: " ++ pathText path

/-- The stable code of a problem. -/
def code : Problem → String
  | .duplicateStage .. => "SEED-006-DUPLICATE_STAGE"
  | .stagePosition .. => "SEED-006-STAGE_POSITION"
  | .duplicateJob .. => "SEED-001-DUPLICATE"
  | .duplicateAcross .. => "SEED-001-DUPLICATE_ACROSS"
  | .undefinedNeed .. => "SEED-002-UNDEFINED_NEED"
  | .excludedNeed .. => "SEED-002-EXCLUDED_NEED"
  | .tooManyNeeds .. => "SEED-003-NEEDS_LIMIT"
  | .rulePattern .. => "SEED-004-RULE_PATTERN"
  | .cycle .. => "SEED-005-CYCLE"

/-- How to mend a problem. -/
def hint : Problem → Option String
  | .duplicateStage .. => some "Rename one of the stages or merge their jobs."
  | .stagePosition .. => some "Give each stage a distinct index."
  | .duplicateJob .. => some "Rename one of the jobs."
  | .duplicateAcross .. => some "Job names must be unique across all stages."
  | .undefinedNeed .. => some "Check for typos in the need, or mark it optional."
  | .excludedNeed .. => some "Check for typos in the need, or mark it optional."
  | .tooManyNeeds .. => some "Split the job or depend on a stage instead."
  | .rulePattern .. => none
  | .cycle .. => some "Remove one of the needs in the cycle to break it."

/-- The names that a problem is about. -/
def context : Problem → List (String × String)
  | .duplicateStage stage => [("stage", stage)]
  | .stagePosition stage other position =>
      [("stage", stage), ("other", other), ("position", toString position.toNat)]
  | .duplicateJob stage job => [("stage", stage), ("job", job)]
  | .duplicateAcross job _ _ => [("job", job)]
  | .undefinedNeed job need => [("job", job), ("need", need)]
  | .excludedNeed job need => [("job", job), ("need", need)]
  | .tooManyNeeds job _ _ => [("job", job)]
  | .rulePattern job pattern => [("job", job), ("pattern", pattern)]
  | .cycle path => [("path", pathText path)]

/-- The diagnostics of a problem. -/
def diagnosis (p : Problem) : Diagnosis := ⟨p.code, p.hint, .ofList p.context⟩

end Problem

end CiPipeline.Graph
