/-
  CiPipeline.Store.StoredPipeline
  ───────────────────────────────
  **What is kept of a pipeline.**

  A record is the pipeline and its graph without what was only needed to make
  them: the jobs in their stages, with when they run and what they need.
-/
import CiPipeline.Graph.Basic
import CiPipeline.Pipeline.Basic

namespace CiPipeline

open CiPipeline.Graph (Edge Job Stage)
open Json (Codec Field Record)
open Time (Instant)

/-! ## §1. Needs, jobs and stages. -/

/-- What is kept of a need. -/
structure StoredNeed where
  job : String
  artifacts : Bool
  deriving DecidableEq, Repr, Inhabited

namespace StoredNeed

/-- The record of a need. -/
def ofEdge (n : Edge) : StoredNeed := ⟨n.job, n.artifacts⟩

/-- The fields of a need. -/
def record :=
  Record.cons (.required "name" .string) <|
  .cons (.required "artifacts" .bool) <|
  .nil

/-- The written form of a need. -/
def codec : Codec StoredNeed :=
  record.codec "NeedRecord" (fun (job, artifacts, _) => ⟨job, artifacts⟩)
    (fun n => (n.job, n.artifacts, ()))

theorem codec_lawful : codec.Lawful :=
  Record.codec_lawful
    ⟨Field.required_lawful Codec.string_lawful, Field.required_lawful Codec.bool_lawful, trivial⟩
    (by decide) fun _ => rfl

end StoredNeed

/-- What is kept of a job. -/
structure StoredJob where
  name : String
  stage : String
  stageIdx : UInt64
  script : List String
  when : When
  allowFailure : Bool
  needs : List StoredNeed
  deriving DecidableEq, Repr, Inhabited

namespace StoredJob

/-- The record of a job. -/
def ofJob (j : Job) : StoredJob :=
  ⟨j.name, j.stage, j.stageIdx, j.script, j.when, j.allowFailure, j.needs.map .ofEdge⟩

/-- The fields of a job. -/
def record :=
  Record.cons (.required "name" .string) <|
  .cons (.required "stage" .string) <|
  .cons (.required "stage_idx" .uint64) <|
  .cons (.required "script" Codec.string.list) <|
  .cons (.required "when" When.codec) <|
  .cons (.required "allow_failure" .bool) <|
  .cons (.required "needs" StoredNeed.codec.list) <|
  .nil

/-- The written form of a job. -/
def codec : Codec StoredJob :=
  record.codec "JobRecord"
    (fun (name, stage, stageIdx, script, when_, allowFailure, needs, _) =>
      ⟨name, stage, stageIdx, script, when_, allowFailure, needs⟩)
    (fun j => (j.name, j.stage, j.stageIdx, j.script, j.when, j.allowFailure, j.needs, ()))

theorem codec_lawful : codec.Lawful :=
  Record.codec_lawful
    ⟨Field.required_lawful Codec.string_lawful, Field.required_lawful Codec.string_lawful,
     Field.required_lawful Codec.uint64_lawful,
     Field.required_lawful (Codec.list_lawful Codec.string_lawful),
     Field.required_lawful When.codec_lawful, Field.required_lawful Codec.bool_lawful,
     Field.required_lawful (Codec.list_lawful StoredNeed.codec_lawful), trivial⟩
    (by decide) fun _ => rfl

end StoredJob

/-- What is kept of a stage. -/
structure StoredStage where
  name : String
  position : UInt64
  jobs : List StoredJob
  deriving DecidableEq, Repr, Inhabited

namespace StoredStage

/-- The record of a stage. -/
def ofStage (s : Stage) : StoredStage := ⟨s.name, s.position, s.jobs.map .ofJob⟩

/-- The fields of a stage. -/
def record :=
  Record.cons (.required "name" .string) <|
  .cons (.required "position" .uint64) <|
  .cons (.required "jobs" StoredJob.codec.list) <|
  .nil

/-- The written form of a stage. -/
def codec : Codec StoredStage :=
  record.codec "StageRecord" (fun (name, position, jobs, _) => ⟨name, position, jobs⟩)
    (fun s => (s.name, s.position, s.jobs, ()))

theorem codec_lawful : codec.Lawful :=
  Record.codec_lawful
    ⟨Field.required_lawful Codec.string_lawful, Field.required_lawful Codec.uint64_lawful,
     Field.required_lawful (Codec.list_lawful StoredJob.codec_lawful), trivial⟩
    (by decide) fun _ => rfl

end StoredStage

/-! ## §2. Pipelines. -/

/-- What is kept of a pipeline. -/
structure StoredPipeline where
  /-- The number of the record, given when it is inserted. -/
  id : Option Int64
  projectId : ProjectId
  iid : Option Int64
  refPath : String
  ciRefId : Option Int64
  sha : Option String
  source : Source
  refProtected : Bool
  vars : Dict String
  stages : List StoredStage
  createdAt : Instant
  deriving DecidableEq, Inhabited

namespace StoredPipeline

/-- The record of a pipeline with a graph. -/
def ofGraph (p : Pipeline) (g : Graph) : StoredPipeline where
  id := none
  projectId := p.projectId
  iid := p.iid
  refPath := p.refPath
  ciRefId := p.ciRef.map (·.id)
  sha := p.sha
  source := p.source
  refProtected := p.refProtected
  vars := p.vars
  stages := g.stages.map .ofStage
  createdAt := p.createdAt

/-- The record with its number. -/
def withId (r : StoredPipeline) (id : Int64) : StoredPipeline := { r with id := some id }

/-- The number of jobs in all stages. -/
def jobCount (r : StoredPipeline) : Nat := (r.stages.map (·.jobs.length)).foldr (· + ·) 0

/-- The fields of a pipeline. -/
def record :=
  Record.cons (.nullable "id" .int64) <|
  .cons (.required "project_id" ProjectId.codec) <|
  .cons (.nullable "iid" .int64) <|
  .cons (.required "ref_path" .string) <|
  .cons (.nullable "ci_ref_id" .int64) <|
  .cons (.nullable "sha" .string) <|
  .cons (.required "source" Source.codec) <|
  .cons (.required "protected" .bool) <|
  .cons (.required "variables" Codec.string.dict) <|
  .cons (.required "stages" StoredStage.codec.list) <|
  .cons (.required "created_at" Instant.codec) <|
  .nil

/-- The written form of a pipeline. -/
def codec : Codec StoredPipeline :=
  record.codec "PipelineRecord"
    (fun (id, project, iid, refPath, ciRefId, sha, source, refProtected, vars, stages,
        createdAt, _) =>
      ⟨id, project, iid, refPath, ciRefId, sha, source, refProtected, vars, stages, createdAt⟩)
    (fun r =>
      (r.id, r.projectId, r.iid, r.refPath, r.ciRefId, r.sha, r.source, r.refProtected,
        r.vars, r.stages, r.createdAt, ()))

end StoredPipeline

end CiPipeline
