/-
  CiPipeline.Graph.Basic
  ──────────────────────
  **The graph of stages and jobs of a pipeline.**

  A graph is always built; whatever is wrong with the definition is collected in
  its problems, so that all of it is reported at once.  Stages are in the order of
  their positions, and a stage without jobs is left out.
-/
import CiPipeline.Graph.Cycles
import CiPipeline.Graph.Needs
import CiPipeline.Log

namespace CiPipeline

open CiPipeline.Graph (Problem Job Stage Survey PlacedJob PlacedStage ResolvedNeeds Digraph)

/-- The stages and jobs of a pipeline, before it is persisted. -/
structure Graph where
  stages : List Stage
  problems : List Problem
  deriving Inhabited

namespace Graph

variable [Regex.Engine]

/-! ## §1. Building. -/

/-- The jobs of a stage that take part, and the problems of their needs. -/
def draftJobs (survey : Survey) (maxNeeds : UInt64) (stage : PlacedStage) :
    List (Job × List Problem) :=
  stage.jobs.filterMap fun p =>
    p.when?.map fun w =>
      let resolved := ResolvedNeeds.of survey.standing maxNeeds p.job
      (⟨p.job.name, stage.name, stage.position, p.job.script, w, p.job.allowFailure,
        resolved.needs, p.job.options⟩, resolved.problems)

/-- Puts a stage before the first one that stands behind its position. -/
def insertStage (s : Stage) : List Stage → List Stage
  | [] => [s]
  | t :: rest => if t.position < s.position then t :: insertStage s rest else s :: t :: rest

/-- Stages in the order of their positions. -/
def sortStages (stages : List Stage) : List Stage :=
  stages.foldr insertStage []

/-- The jobs of stages, as nodes with edges to what they need. -/
def digraph (stages : List Stage) : Digraph String where
  order := stages.flatMap fun s => s.jobs.map (·.name)
  edges name :=
    match stages.findSome? (·.job? name) with
    | some job => job.needs.map (·.job)
    | none => []

/-- Builds the graph of stages for a ref, with a limit for the needs of a job. -/
def of (refName : String) (stages : List StageDefinition) (maxNeeds : UInt64) : Graph :=
  let survey := Survey.of refName stages
  let drafts := survey.placed.map fun p => (p, draftJobs survey maxNeeds p)
  let kept := sortStages <| drafts.filterMap fun (p, jobs) =>
    if jobs.isEmpty then none else some ⟨p.name, p.position, jobs.map (·.1)⟩
  let needProblems := drafts.flatMap fun (_, jobs) => jobs.flatMap (·.2)
  -- rings are searched for even if something else is wrong
  ⟨kept, survey.problems ++ needProblems ++ (digraph kept).cycles.map .cycle⟩

/-! ## §2. Reading. -/

/-- The stage of a name. -/
def stage? (g : Graph) (name : String) : Option Stage :=
  g.stages.find? (·.name = name)

/-- The job of a name, in whatever stage it is. -/
def job? (g : Graph) (name : String) : Option Job :=
  g.stages.findSome? (·.job? name)

/-- The number of jobs. -/
def size (g : Graph) : Nat :=
  (g.stages.map (·.size)).foldr (· + ·) 0

/-- Nothing is wrong with the graph. -/
def isValid (g : Graph) : Bool := g.problems.isEmpty

/-- The messages of the problems, if there are any. -/
def messages? (g : Graph) : Option (List String) :=
  if g.isValid then none else some (g.problems.map (·.message))

/-- What is logged when the graph has been built. -/
def buildLog (g : Graph) : List LogLine :=
  if g.isValid then [] else [.debug "Seed graph has validation errors"]

end Graph

end CiPipeline
