/-
  CiPipeline.Chain.Standard
  ─────────────────────────
  **The links of the creation of pipelines.**

  The standard chain seeds the pipeline, evaluates the rules of the workflow, runs
  a deferred seed block and persists the pipeline.  A probe stands in for a link
  whose calls are watched.
-/
import CiPipeline.Creation.Persistence
import CiPipeline.Chain.Run
import CiPipeline.Creation.Seeding
import CiPipeline.Creation.Filtering
import CiPipeline.Regex.Standard

namespace CiPipeline

/-- A link whose calls are kept.  It fails once with an error if it has one, and
otherwise records a mistake on the pipeline if it has one. -/
structure Probe where
  name : String
  mistake : Option (String × FailureReason)
  fatal : Option CreationError
  deriving DecidableEq, Repr

namespace Probe

/-- A link that does nothing but being called. -/
def named (name : String) : Probe := ⟨name, none, none⟩

/-- The work of a probe, and the probe afterwards. -/
def work (l : Probe) (c : Creation) (s : Stores) : Work × Probe :=
  let notes := [.call l.name]
  match l.fatal with
  | some e => (.abort e c s notes, { l with fatal := none })
  | none =>
      match l.mistake with
      | some (message, reason) => (.done (c.reject message reason) s notes, l)
      | none => (.done c s notes, l)

end Probe

/-- The links of the creation of pipelines. -/
inductive CreationLink where
  /-- Prepares the pipeline and builds its graph, which it keeps. -/
  | seed (memo : Option GraphMemo)
  | workflowRules
  /-- Runs a deferred seed block. -/
  | seedBlock
  /-- Persists the pipeline. -/
  | create
  | probe (l : Probe)

namespace CreationLink

variable [Regex.Engine]

/-- The name of a link. -/
def name : CreationLink → String
  | .seed _ => "seed"
  | .workflowRules => "evaluate_workflow_rules"
  | .seedBlock => "seed_block"
  | .create => "create"
  | .probe l => l.name

/-- What a link does to a creation. -/
def work (link : CreationLink) (c : Creation) (s : Stores) : Performed CreationLink :=
  match link with
  | .seed memo =>
      let (work, memo) := c.seed memo s
      work.leaving (.seed memo)
  | .workflowRules => (c.filter s).leaving .workflowRules
  | .seedBlock => (c.runDeferredBlock s).leaving .seedBlock
  | .create => (c.create s).leaving .create
  | .probe l =>
      let (work, l) := l.work c s
      work.leaving (.probe l)

instance : Link CreationLink where
  name := name
  work := work

/-- The link of a name, with nothing kept yet. -/
def ofName? : String → Option CreationLink
  | "seed" => some (.seed none)
  | "evaluate_workflow_rules" => some .workflowRules
  | "seed_block" => some .seedBlock
  | "create" => some .create
  | _ => none

end CreationLink

/-- The standard chain. -/
def Chain.standard : Chain CreationLink :=
  ⟨[.seed none, .workflowRules, .seedBlock, .create]⟩

end CiPipeline
