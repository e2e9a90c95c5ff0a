/-
  CiPipeline.Creation.Filtering
  ─────────────────────────────
  **Whether there is a pipeline for the ref at all, and the deferred seed block.**

  A ref that the rules of the workflow exclude drops the pipeline, and so does a
  rule with an invalid pattern.  A seed block that is deferred runs after that.
-/
import CiPipeline.Creation.Work
import CiPipeline.Definition.Verdict

namespace CiPipeline

/-- What is recorded when the rules exclude the ref. -/
def filteredMessage : String := "Pipeline filtered out by workflow rules."

/-- What is recorded when a rule has an invalid pattern. -/
def invalidRuleMessage (pattern : String) : String :=
  s!"workflow rules have an invalid pattern '{pattern}'"

namespace Creation

variable [Regex.Engine]

/-- Lets the rules of the workflow decide on the ref. -/
def filter (c : Creation) (s : Stores) : Work :=
  match c.definition with
  | none => .abort .missingDefinition c s []
  | some d =>
      match Rule.judge d.workflowRules c.pipeline.refName .always with
      | .included _ => .done c s [.log (.debug "Workflow rules passed")]
      | .excluded =>
          .done (c.reject filteredMessage .filteredByWorkflowRules) s
            [.log (.info "Pipeline filtered out by workflow rules")]
      | .invalidPattern pattern =>
          .done (c.reject (invalidRuleMessage pattern) .configError) s []

/-- Runs the seed block if it is deferred. -/
def runDeferredBlock (c : Creation) (s : Stores) : Work :=
  if c.features.seedBlockAfterWorkflowRules then
    let ran := c.seedBlock.isSome
    let (c, calls) := c.runBlock
    .done c s (calls ++ if ran then [.log (.debug "Ran deferred seed block")] else [])
  else .done c s []

end Creation

end CiPipeline
