/-
  CiPipeline.Pipeline.Status
  ──────────────────────────
  **Where a pipeline stands, where it comes from, and why it failed.**
-/
import CiPipeline.Json.Codec

namespace CiPipeline

open Json (Codec)

/-- The status of a pipeline while it is made. -/
inductive Status where
  /-- Not yet persisted. -/
  | new
  /-- Persisted with its stages and jobs. -/
  | created
  /-- It could not be made; it carries errors. -/
  | failed
  deriving DecidableEq, Repr, Inhabited

namespace Status

/-- The name of a status. -/
def name : Status → String
  | .new => "new"
  | .created => "created"
  | .failed => "failed"

/-- The pipeline is made, or has failed for good. -/
def isTerminal : Status → Bool
  | .new => false
  | .created => true
  | .failed => true

/-- Statuses by their names. -/
def cases : List (String × Status) :=
  [("new", .new), ("created", .created), ("failed", .failed)]

/-- The written form of a status. -/
def codec : Codec Status := .variants cases name

theorem codec_lawful : codec.Lawful :=
  Codec.variants_lawful fun s => by cases s <;> rfl

end Status

/-- What started a pipeline. -/
inductive Source where
  | push
  | web
  | schedule
  | api
  | mergeRequestEvent
  deriving DecidableEq, Repr, Inhabited

namespace Source

/-- The name of a source. -/
def name : Source → String
  | .push => "push"
  | .web => "web"
  | .schedule => "schedule"
  | .api => "api"
  | .mergeRequestEvent => "merge_request_event"

/-- Sources by their names. -/
def cases : List (String × Source) :=
  [("push", .push), ("web", .web), ("schedule", .schedule), ("api", .api),
   ("merge_request_event", .mergeRequestEvent)]

/-- The written form of a source. -/
def codec : Codec Source := .variants cases name

theorem codec_lawful : codec.Lawful :=
  Codec.variants_lawful fun s => by cases s <;> rfl

end Source

/-- Why a pipeline failed. -/
inductive FailureReason where
  /-- The definition cannot be made into a pipeline. -/
  | configError
  /-- The rules of the workflow exclude the ref. -/
  | filteredByWorkflowRules
  deriving DecidableEq, Repr

namespace FailureReason

/-- The name of a reason. -/
def name : FailureReason → String
  | .configError => "config_error"
  | .filteredByWorkflowRules => "filtered_by_workflow_rules"

/-- Reasons by their names. -/
def cases : List (String × FailureReason) :=
  [("config_error", .configError), ("filtered_by_workflow_rules", .filteredByWorkflowRules)]

/-- The written form of a reason. -/
def codec : Codec FailureReason := .variants cases name

theorem codec_lawful : codec.Lawful :=
  Codec.variants_lawful fun r => by cases r <;> rfl

end FailureReason

end CiPipeline
