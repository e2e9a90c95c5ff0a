/-
  CiPipeline.Event.Attributes
  ───────────────────────────
  **What a run of a chain is about.**

  The attributes go along with the events of a run.  They are also given as texts
  under names of their own, of which those that are absent are left out.
-/
import CiPipeline.Json.Record
import CiPipeline.Log

namespace CiPipeline

open Json (Codec Field Record)

/-- What a run of a chain is about. -/
structure RunAttributes where
  runId : Option String
  projectId : Option Int64
  iid : Option Int64
  refName : Option String
  link : Option String
  deriving DecidableEq, Repr, Inhabited

namespace RunAttributes

/-- No attributes. -/
def empty : RunAttributes := ⟨none, none, none, none, none⟩

/-- The attributes as texts. -/
def texts (a : RunAttributes) : Dict String :=
  .ofList <| List.flatten
    [a.runId.toList.map fun v => ("chain.run_id", v),
     a.projectId.toList.map fun v => ("chain.project_id", toString v.toInt),
     a.iid.toList.map fun v => ("chain.pipeline_iid", toString v.toInt),
     a.refName.toList.map fun v => ("chain.ref", v),
     a.link.toList.map fun v => ("chain.link", v)]

/-- The fields of the attributes. -/
def record :=
  Record.cons (.nullable "run_id" .string) <|
  .cons (.nullable "project_id" .int64) <|
  .cons (.nullable "iid" .int64) <|
  .cons (.nullable "ref_name" .string) <|
  .cons (.nullable "link" .string) <|
  .nil

/-- The written form of the attributes. -/
def codec : Codec RunAttributes :=
  record.codec "ChainSpanAttributes"
    (fun (runId, projectId, iid, refName, link, _) => ⟨runId, projectId, iid, refName, link⟩)
    (fun a => (a.runId, a.projectId, a.iid, a.refName, a.link, ()))

/-- What is logged when the time of a run, or of a link of it, has been taken. -/
def timed : LogLine := .debug "Span finished"

end RunAttributes

end CiPipeline
