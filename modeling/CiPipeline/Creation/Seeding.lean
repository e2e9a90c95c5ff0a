/-
  CiPipeline.Creation.Seeding
  ───────────────────────────
  **Preparing a pipeline and building its graph.**

  The pipeline is given its number and its registered ref, it learns whether it is
  protected, and the seed block runs unless it is deferred.  Then the graph is
  built; problems of the graph are recorded on the pipeline all at once, and only
  a valid graph is attached to the creation.  The graph of a creation is built once
  and kept until another creation comes.
-/
import CiPipeline.Creation.Work
import CiPipeline.Pipeline.Registration

namespace CiPipeline

/-- The graph that has been built for a creation. -/
structure GraphMemo where
  runId : RunId
  graph : Graph

namespace Creation

variable [Regex.Engine]

/-- Numbers, registers and protects the pipeline, and runs the seed block unless
it is deferred. -/
def prepare (c : Creation) (s : Stores) : Work :=
  let numbered := c.pipeline.takeNumber s
  let c := { c with pipeline := numbered.pipeline }
  let notes := numbered.log.map .log
  match numbered.result with
  | .error e => .abort (.allocation e) c numbered.stores notes
  | .ok _ =>
      let registered := c.pipeline.register numbered.stores
      let c := { c with pipeline := registered.pipeline }
      match registered.result with
      | .error e => .abort (.persistence e) c registered.stores notes
      | .ok _ =>
          let c := c.protect
          if c.features.seedBlockAfterWorkflowRules then .done c registered.stores notes
          else
            let (c, calls) := c.runBlock
            .done c registered.stores (notes ++ calls)

/-- The graph of a creation, which is built unless it has been, and what is logged. -/
def graphWith (memo : Option GraphMemo) (c : Creation) (d : Definition) : Graph × List Note :=
  match memo.filter (·.runId = c.runId) with
  | some m => (m.graph, [])
  | none =>
      let g := c.graphOf d.stages
      (g, (g.buildLog ++ [LogLine.debug "Built pipeline seed"]).map .log)

/-- Attaches a valid graph; records the problems of any other. -/
def attach (c : Creation) (g : Graph) : Creation × List Note :=
  match g.messages? with
  | none => ({ c with graph := some g }, [])
  | some messages =>
      (c.reject ("\n".intercalate messages) .configError,
        messages.map fun _ => .log (.debug "Seed validation error"))

/-- Prepares the pipeline and builds its graph; the second result is the graph that
is kept. -/
def seed (memo : Option GraphMemo) (c : Creation) (s : Stores) : Work × Option GraphMemo :=
  match c.definition with
  | none => (.abort .missingDefinition c s [], memo)
  | some d =>
      let prepared := c.prepare s
      match prepared.result with
      | .error _ => (prepared, memo)
      | .ok _ =>
          let c := prepared.creation
          let (g, built) := c.graphWith memo d
          -- kept before it is looked at: a graph with problems is not built again either
          let memo := some ⟨c.runId, g⟩
          let (c, checked) := c.attach g
          (.done c prepared.stores (prepared.notes ++ built ++ checked), memo)

end Creation

end CiPipeline
