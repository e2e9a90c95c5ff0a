/-
  CiPipeline.Definition.Basic
  ───────────────────────────
  **What a pipeline is made from: stages, jobs, needs and rules.**

  A definition lists stages, a stage lists jobs.  A job may need other jobs, in
  whatever stage they are, and its rules say for which refs it takes part.  The
  rules of the definition itself say for which refs there is a pipeline at all.
-/
import CiPipeline.Json.Value

namespace CiPipeline

/-- When a job runs. -/
inductive When where
  | onSuccess
  | onFailure
  | always
  | manual
  | never
  deriving DecidableEq, Repr

instance : Inhabited When := ⟨.onSuccess⟩

/-- The name of a time to run. -/
def When.name : When → String
  | .onSuccess => "on_success"
  | .onFailure => "on_failure"
  | .always => "always"
  | .manual => "manual"
  | .never => "never"

/-- A rule: a pattern for the name of the ref, and when to run if it matches.
Without a pattern every ref matches; without a time the subject's own one counts. -/
structure Rule where
  ifRef : Option String
  when : Option When
  deriving DecidableEq, Repr

namespace Rule

/-- A rule for the refs that a pattern matches. -/
def onRef (pattern : String) (w : When) : Rule := ⟨some pattern, some w⟩

/-- A rule for every ref. -/
def onAll (w : When) : Rule := ⟨none, some w⟩

end Rule

/-- A need: a job waits for another one and, unless told otherwise, takes its
artifacts.  An optional need is dropped with the job that it names. -/
structure Need where
  job : String
  artifacts : Bool
  optional : Bool
  deriving DecidableEq, Repr

namespace Need

/-- The plain need of a job. -/
def of (job : String) : Need := ⟨job, true, false⟩

/-- The need, optional. -/
def orSkipped (n : Need) : Need := { n with optional := true }

/-- The need, without taking artifacts. -/
def withoutArtifacts (n : Need) : Need := { n with artifacts := false }

end Need

/-- A job as it is declared. -/
structure JobDefinition where
  name : String
  script : List String
  needs : List Need
  rules : List Rule
  when : When
  allowFailure : Bool
  options : Dict Json.Value

instance : Inhabited JobDefinition := ⟨⟨"", [], [], [], .onSuccess, false, .empty⟩⟩

namespace JobDefinition

/-- A job with one line of script, which names it. -/
def named (name : String) : JobDefinition :=
  ⟨name, [s!"echo {name}"], [], [], .onSuccess, false, .empty⟩

/-- The job with one more need. -/
def needing (j : JobDefinition) (n : Need) : JobDefinition :=
  { j with needs := j.needs ++ [n] }

/-- The job with one more rule. -/
def ruledBy (j : JobDefinition) (r : Rule) : JobDefinition :=
  { j with rules := j.rules ++ [r] }

/-- The job, run at another time. -/
def runAt (j : JobDefinition) (w : When) : JobDefinition :=
  { j with when := w }

end JobDefinition

/-- A stage as it is declared.  Its index is the position it asks for; without one
it takes its place in the order of declaration. -/
structure StageDefinition where
  name : String
  index : Option UInt64
  jobs : List JobDefinition

instance : Inhabited StageDefinition := ⟨⟨"", none, []⟩⟩

/-- A stage without an index. -/
def StageDefinition.named (name : String) (jobs : List JobDefinition) : StageDefinition :=
  ⟨name, none, jobs⟩

/-- The definition of a pipeline. -/
structure Definition where
  stages : List StageDefinition
  workflowRules : List Rule

instance : Inhabited Definition := ⟨⟨[], []⟩⟩

namespace Definition

/-- A definition without rules of its own. -/
def ofStages (stages : List StageDefinition) : Definition := ⟨stages, []⟩

/-- The definition with other rules of its own. -/
def filteredBy (d : Definition) (rules : List Rule) : Definition :=
  { d with workflowRules := rules }

end Definition

end CiPipeline
