/-
  CiPipeline.Creation.Basic
  ─────────────────────────
  **The creation of one pipeline: what a run of a chain works on.**

  A creation holds the pipeline, its definition and its settings.  The caller may
  give it a seed block, which changes the pipeline on the way.  Whether the ref is
  protected is asked at most once, and the features are resolved for the project
  when the creation starts.
-/
import CiPipeline.Event.Basic
import CiPipeline.Graph.Basic
import CiPipeline.Pipeline.Basic
import CiPipeline.Ref.Protection
import CiPipeline.Settings.Basic

namespace CiPipeline

/-- Identifies a creation among all others. -/
structure RunId where
  text : String
  deriving DecidableEq, Repr, Inhabited

/-- What a caller does to the pipeline on the way. -/
abbrev SeedBlock := Pipeline → Pipeline

/-- A question about a ref, with its answer. -/
structure ProtectionLookup where
  query : RefQuery
  answer : Bool
  deriving DecidableEq, Repr

/-- A pipeline in the making, with all that its making needs. -/
structure Creation where
  runId : RunId
  project : Project
  pipeline : Pipeline
  definition : Option Definition
  seedBlock : Option SeedBlock
  /-- The graph, once it has been built and is valid. -/
  graph : Option Graph
  settings : Settings
  features : ResolvedFeatures
  protection : Protection
  /-- The question about the protection of the ref, once it has been asked. -/
  lookup : Option ProtectionLookup
  /-- The pipelines that the seed block has been given so far. -/
  blockRuns : List Pipeline

namespace Creation

variable [Regex.Engine]

/-- A creation for a pipeline, with everything else as it is unless set. -/
def of (runId : RunId) (project : Project) (pipeline : Pipeline) (settings : Settings) :
    Creation where
  runId := runId
  project := project
  pipeline := pipeline
  definition := none
  seedBlock := none
  graph := none
  settings := settings
  features := settings.features.resolve project.id
  protection := ProtectedRefs.none.protection
  lookup := none
  blockRuns := []

/-- The creation with a definition. -/
def withDefinition (c : Creation) (d : Definition) : Creation := { c with definition := some d }

/-- The creation with a seed block. -/
def withSeedBlock (c : Creation) (block : SeedBlock) : Creation := { c with seedBlock := some block }

/-- The creation with a protection. -/
def withProtection (c : Creation) (p : Protection) : Creation := { c with protection := p }

/-- The question whether the ref of the pipeline is protected. -/
def refQuery (c : Creation) : RefQuery := ⟨c.project.id, c.pipeline.refName, c.pipeline.tag⟩

/-- The answer to the question about the ref, which is asked if it has not been;
the creation keeps it. -/
def askProtection (c : Creation) : Bool × Creation :=
  match c.lookup with
  | some l => (l.answer, c)
  | none =>
      let answer := c.protection c.refQuery
      (answer, { c with lookup := some ⟨c.refQuery, answer⟩ })

/-- Sets whether the pipeline is protected. -/
def protect (c : Creation) : Creation :=
  let (answer, c) := c.askProtection
  { c with pipeline := { c.pipeline with refProtected := answer } }

/-- Runs the seed block, if there is one. -/
def runBlock (c : Creation) : Creation × List Note :=
  match c.seedBlock with
  | none => (c, [])
  | some block =>
      ({ c with pipeline := block c.pipeline, blockRuns := c.blockRuns ++ [c.pipeline] },
        [.call "seeds_block"])

/-- The graph of a definition under the settings of the creation. -/
def graphOf (c : Creation) (stages : List StageDefinition) : Graph :=
  Graph.of c.pipeline.refName stages c.settings.maxNeeds

/-- Records an error on the pipeline. -/
def reject (c : Creation) (message : String) (reason : FailureReason) : Creation :=
  { c with pipeline := c.pipeline.reject message reason }

end Creation

end CiPipeline
