/-
  CiPipeline.Pipeline.Basic
  ─────────────────────────
  **A pipeline while it is made.**

  A pipeline belongs to a ref of a project.  It is given a number within its
  project, its registered ref and its protection on the way, and it collects the
  errors that keep it from being made.
-/
import CiPipeline.Pipeline.Status
import CiPipeline.Project.Basic
import CiPipeline.Time.Written

namespace CiPipeline

open Json (Codec Field Record)
open Time (Instant)

/-- A pipeline while it is made. -/
structure Pipeline where
  /-- The number of its record, once it is persisted. -/
  id : Option Int64
  projectId : ProjectId
  /-- Its number within the project. -/
  iid : Option Int64
  refName : String
  tag : Bool
  sha : Option String
  source : Source
  ciRef : Option CiRef
  refProtected : Bool
  vars : Dict String
  status : Status
  failureReason : Option FailureReason
  yamlErrors : Option String
  errors : List String
  createdAt : Instant
  deriving Inhabited

namespace Pipeline

/-- A pipeline for a branch of a project. -/
def of (project : ProjectId) (refName : String) (createdAt : Instant) : Pipeline where
  id := none
  projectId := project
  iid := none
  refName := refName
  tag := false
  sha := none
  source := .push
  ciRef := none
  refProtected := false
  vars := .empty
  status := .new
  failureReason := none
  yamlErrors := none
  errors := []
  createdAt := createdAt

/-- The path of the ref: branches and tags have one of their own. -/
def refPath (p : Pipeline) : String :=
  if p.tag then "refs/tags/" ++ p.refName else "refs/heads/" ++ p.refName

/-- Some error has been recorded. -/
def hasErrors (p : Pipeline) : Bool := !p.errors.isEmpty

/-- Adds an error that a user will see. -/
def withError (p : Pipeline) (message : String) : Pipeline :=
  { p with errors := p.errors ++ [message] }

/-- The pipeline has failed for a reason. -/
def failFor (p : Pipeline) (reason : FailureReason) : Pipeline :=
  { p with failureReason := some reason, status := .failed }

/-- Records an error with its reason.  One in the definition is kept apart, too. -/
def reject (p : Pipeline) (message : String) (reason : FailureReason) : Pipeline :=
  let p := if reason = .configError then { p with yamlErrors := some message } else p
  (p.withError message).failFor reason

/-- The fields of a pipeline. -/
def record :=
  Record.cons (.nullable "id" .int64) <|
  .cons (.required "project_id" ProjectId.codec) <|
  .cons (.nullable "iid" .int64) <|
  .cons (.required "ref_name" .string) <|
  .cons (.required "tag" .bool) <|
  .cons (.nullable "sha" .string) <|
  .cons (.required "source" Source.codec) <|
  .cons (.nullable "ci_ref" CiRef.codec) <|
  .cons (.required "protected" .bool) <|
  .cons (.defaulted "variables" Codec.string.dict .empty) <|
  .cons (.required "status" Status.codec) <|
  .cons (.nullable "failure_reason" FailureReason.codec) <|
  .cons (.nullable "yaml_errors" .string) <|
  .cons (.required "errors" Codec.string.list) <|
  .cons (.required "created_at" Instant.codec) <|
  .nil

/-- The written form of a pipeline. -/
def codec : Codec Pipeline :=
  record.codec "Pipeline"
    (fun (id, project, iid, refName, tag, sha, source, ciRef, refProtected, vars, status,
        failureReason, yamlErrors, errors, createdAt, _) =>
      ⟨id, project, iid, refName, tag, sha, source, ciRef, refProtected, vars, status,
        failureReason, yamlErrors, errors, createdAt⟩)
    (fun p =>
      (p.id, p.projectId, p.iid, p.refName, p.tag, p.sha, p.source, p.ciRef, p.refProtected,
        p.vars, p.status, p.failureReason, p.yamlErrors, p.errors, p.createdAt, ()))

end Pipeline

end CiPipeline
