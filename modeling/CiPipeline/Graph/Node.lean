/-
  CiPipeline.Graph.Node
  ─────────────────────
  **The jobs and stages of a graph.**

  A job of a graph knows its stage, when it runs, and which jobs of the graph it
  needs.  A job without needs waits for all stages before its own.
-/
import CiPipeline.Definition.Written

namespace CiPipeline.Graph

open Json (Codec Field Record)

/-! ## §1. Needs. -/

/-- A need between two jobs of a graph. -/
structure Edge where
  /-- The name of the job that is needed. -/
  job : String
  artifacts : Bool
  deriving DecidableEq, Repr, Inhabited

/-- The fields of a need. -/
def Edge.record :=
  Record.cons (.required "name" .string) <|
  .cons (.required "artifacts" .bool) <|
  .nil

/-- The written form of a need. -/
def Edge.codec : Codec Edge :=
  Edge.record.codec "NeedSeed" (fun (job, artifacts, _) => ⟨job, artifacts⟩)
    (fun n => (n.job, n.artifacts, ()))

theorem Edge.codec_lawful : Edge.codec.Lawful :=
  Record.codec_lawful
    ⟨Field.required_lawful Codec.string_lawful, Field.required_lawful Codec.bool_lawful, trivial⟩
    (by decide) fun _ => rfl

/-- What a job waits for. -/
inductive Scheduling where
  /-- All stages before its own. -/
  | stage
  /-- The jobs that it needs. -/
  | dag
  deriving DecidableEq, Repr

/-- The name of a scheduling. -/
def Scheduling.name : Scheduling → String
  | .stage => "stage"
  | .dag => "dag"

/-- The written form of a scheduling. -/
def Scheduling.codec : Codec Scheduling :=
  .variants [("stage", .stage), ("dag", .dag)] Scheduling.name

/-! ## §2. Jobs. -/

/-- A job of a graph. -/
structure Job where
  name : String
  stage : String
  /-- The position of the stage. -/
  stageIdx : UInt64
  script : List String
  when : When
  allowFailure : Bool
  needs : List Edge
  options : Dict Json.Value
  deriving Inhabited

namespace Job

/-- What the job waits for. -/
def scheduling (j : Job) : Scheduling :=
  if j.needs.isEmpty then .stage else .dag

/-- The job needs the one of a name. -/
def needsJob (j : Job) (name : String) : Bool :=
  j.needs.any (·.job = name)

/-- The fields of a job. -/
def record :=
  Record.cons (.required "name" .string) <|
  .cons (.required "stage" .string) <|
  .cons (.required "stage_idx" .uint64) <|
  .cons (.required "script" Codec.string.list) <|
  .cons (.required "when" When.codec) <|
  .cons (.required "allow_failure" .bool) <|
  .cons (.required "needs" Edge.codec.list) <|
  .cons (.defaulted "options" Codec.value.dict .empty) <|
  .nil

/-- The written form of a job. -/
def codec : Codec Job :=
  record.codec "BuildSeed"
    (fun (name, stage, stageIdx, script, when_, allowFailure, needs, options, _) =>
      ⟨name, stage, stageIdx, script, when_, allowFailure, needs, options⟩)
    (fun j => (j.name, j.stage, j.stageIdx, j.script, j.when, j.allowFailure, j.needs, j.options, ()))

theorem codec_lawful : codec.Lawful :=
  Record.codec_lawful
    ⟨Field.required_lawful Codec.string_lawful, Field.required_lawful Codec.string_lawful,
     Field.required_lawful Codec.uint64_lawful,
     Field.required_lawful (Codec.list_lawful Codec.string_lawful),
     Field.required_lawful When.codec_lawful, Field.required_lawful Codec.bool_lawful,
     Field.required_lawful (Codec.list_lawful Edge.codec_lawful),
     Field.defaulted_lawful (Codec.dict_lawful Codec.value_lawful), trivial⟩
    (by decide) fun _ => rfl

end Job

/-! ## §3. Stages. -/

/-- A stage of a graph. -/
structure Stage where
  name : String
  position : UInt64
  jobs : List Job
  deriving Inhabited

namespace Stage

/-- The number of jobs. -/
def size (s : Stage) : Nat := s.jobs.length

/-- The job of a name. -/
def job? (s : Stage) (name : String) : Option Job :=
  s.jobs.find? (·.name = name)

/-- The fields of a stage. -/
def record :=
  Record.cons (.required "name" .string) <|
  .cons (.required "position" .uint64) <|
  .cons (.required "builds" Job.codec.list) <|
  .nil

/-- The written form of a stage. -/
def codec : Codec Stage :=
  record.codec "StageSeed" (fun (name, position, jobs, _) => ⟨name, position, jobs⟩)
    (fun s => (s.name, s.position, s.jobs, ()))

theorem codec_lawful : codec.Lawful :=
  Record.codec_lawful
    ⟨Field.required_lawful Codec.string_lawful, Field.required_lawful Codec.uint64_lawful,
     Field.required_lawful (Codec.list_lawful Job.codec_lawful), trivial⟩
    (by decide) fun _ => rfl

end Stage

end CiPipeline.Graph
