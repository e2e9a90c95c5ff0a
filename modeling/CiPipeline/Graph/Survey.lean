/-
  CiPipeline.Graph.Survey
  ───────────────────────
  **Which stages and jobs of a definition take part.**

  The stages are looked at in the order of their declaration.  One whose name has
  been seen, or whose position is taken, is passed over with all its jobs; so is a
  job whose name has been seen in its stage or belongs to a job of another stage.
  The rules of every other job are evaluated for the ref.  Whatever is passed over
  is reported.
-/
import CiPipeline.Definition.Verdict
import CiPipeline.Graph.Problem

namespace CiPipeline.Graph

variable [Regex.Engine]

/-! ## §1. Jobs. -/

/-- A job with what its rules say. -/
structure PlacedJob where
  job : JobDefinition
  verdict : Verdict

namespace PlacedJob

/-- When the job runs, if it takes part.  One with an invalid rule is kept, to be
checked on. -/
def when? (p : PlacedJob) : Option When :=
  match p.verdict with
  | .included w => some w
  | .excluded => none
  | .invalidPattern _ => some p.job.when

/-- The problem of an invalid rule. -/
def problems (p : PlacedJob) : List Problem :=
  match p.verdict with
  | .invalidPattern pattern => [.rulePattern p.job.name pattern]
  | _ => []

end PlacedJob

/-- The jobs of one stage so far. -/
structure JobSurvey where
  /-- All names of jobs so far. -/
  names : List String
  placed : List PlacedJob
  problems : List Problem

/-- Looks at the next job of a stage; `elsewhere` gives the stage of a job of the
stages before. -/
def JobSurvey.add (elsewhere : String → Option String) (stage refName : String) (s : JobSurvey)
    (job : JobDefinition) : JobSurvey :=
  if job.name ∈ s.names then
    { s with problems := s.problems ++ [.duplicateJob stage job.name] }
  else
    -- the name has been seen, also when the job is passed over now
    let s := { s with names := job.name :: s.names }
    match elsewhere job.name with
    | some first => { s with problems := s.problems ++ [.duplicateAcross job.name first stage] }
    | none =>
        let p : PlacedJob := ⟨job, Rule.judge job.rules refName job.when⟩
        { s with placed := s.placed ++ [p], problems := s.problems ++ p.problems }

/-! ## §2. Stages. -/

/-- A stage with its position and those of its jobs that are declared there. -/
structure PlacedStage where
  name : String
  position : UInt64
  jobs : List PlacedJob

/-- What is known of a job's name. -/
inductive Standing where
  | undeclared
  | excluded
  | present
  deriving DecidableEq, Repr

/-- The stages so far. -/
structure Survey where
  /-- All names of stages so far. -/
  names : List String
  placed : List PlacedStage
  problems : List Problem

namespace Survey

/-- Nothing has been looked at. -/
def empty : Survey := ⟨[], [], []⟩

/-- The stage in which a job is declared. -/
def stageOf? (s : Survey) (job : String) : Option String :=
  (s.placed.find? fun p => p.jobs.any (·.job.name = job)).map (·.name)

/-- The position of a stage: its index, or its place in the order of declaration. -/
def position (stage : StageDefinition) (place : Nat) : UInt64 :=
  stage.index.getD (UInt64.ofNat place)

/-- Looks at the next stage. -/
def add (refName : String) (s : Survey) (item : StageDefinition × Nat) : Survey :=
  let (stage, place) := item
  if stage.name ∈ s.names then
    { s with problems := s.problems ++ [.duplicateStage stage.name] }
  else
    -- the name has been seen, also when the stage is passed over now
    let s := { s with names := stage.name :: s.names }
    let position := position stage place
    match s.placed.find? (·.position = position) with
    | some other =>
        { s with problems := s.problems ++ [.stagePosition stage.name other.name position] }
    | none =>
        let jobs := stage.jobs.foldl (JobSurvey.add s.stageOf? stage.name refName) ⟨[], [], []⟩
        { s with
          placed := s.placed ++ [⟨stage.name, position, jobs.placed⟩]
          problems := s.problems ++ jobs.problems }

/-- The survey of stages for a ref. -/
def of (refName : String) (stages : List StageDefinition) : Survey :=
  stages.zipIdx.foldl (add refName) empty

/-- All jobs that are declared. -/
def jobs (s : Survey) : List PlacedJob := s.placed.flatMap (·.jobs)

/-- What is known of a job's name. -/
def standing (s : Survey) (name : String) : Standing :=
  match s.jobs.find? (·.job.name = name) with
  | none => .undeclared
  | some p => if p.verdict = .excluded then .excluded else .present

end Survey

end CiPipeline.Graph
