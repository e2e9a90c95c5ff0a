/-
  CiPipeline.Chain.Run
  ────────────────────
  **Running links in order.**

  The links are performed one after the other on one creation, up to the first one
  that fails or after which the chain halts.  Nothing is undone.  The trace tells
  the run from its start to its last event.
-/
import CiPipeline.Chain.Link

namespace CiPipeline

/-- What a run has reached. -/
structure Outcome where
  /-- The names of the links that have been performed. -/
  performed : List String
  /-- The name of the link after which the chain halted. -/
  haltedAt : Option String
  deriving DecidableEq, Repr, Inhabited

/-- All links have been performed and none has halted the chain. -/
def Outcome.isComplete (o : Outcome) : Bool := o.haltedAt.isNone

/-- What a run leaves behind. -/
structure Run (L : Type) where
  result : Except CreationError Outcome
  links : List L
  creation : Creation
  stores : Stores
  trace : List Notice

/-- Links in the order in which they are run. -/
structure Chain (L : Type) where
  links : List L

namespace Chain

variable {L : Type} [Link L]

/-- The chain with one more link at the end. -/
def append (chain : Chain L) (link : L) : Chain L := ⟨chain.links ++ [link]⟩

/-- The names of the links in order. -/
def names (chain : Chain L) : List String := chain.links.map Link.name

/-- The attributes of a run on a creation. -/
def attributes (c : Creation) : RunAttributes :=
  { RunAttributes.empty with
    runId := some c.runId.text
    projectId := some c.project.id.value
    refName := some c.pipeline.refName }

/-- What is told when a link has failed. -/
def failedTrace (a : RunAttributes) (name : String) (performed : List String) (c : Creation)
    (e : CreationError) : List Notice :=
  [.log (.warn "Chain link failed"),
   .event (.failed { a with link := some name, iid := c.pipeline.iid } name performed e)]

/-- What is told when a link has been performed. -/
def performedTrace (name : String) : List Notice :=
  [.log RunAttributes.timed, .event (.linkCompleted name)]

/-- What is told when the chain halts. -/
def haltedTrace (a : RunAttributes) (name : String) (c : Creation) : List Notice :=
  [.log (.info "Pipeline chain halted"),
   .event (.halted { a with link := some name, iid := c.pipeline.iid } c.pipeline.errors),
   .log RunAttributes.timed]

/-- What is told when the chain is complete. -/
def completedTrace (a : RunAttributes) (performed : List String) (c : Creation) : List Notice :=
  [.log RunAttributes.timed, .log (.info "Pipeline chain completed"),
   .event (.completed { a with iid := c.pipeline.iid } performed)]

/-- Runs links; those of the names `performed` have been performed before. -/
def runFrom (a : RunAttributes) (performed : List String) :
    List L → Creation → Stores → Run L
  | [], c, s => ⟨.ok ⟨performed, none⟩, [], c, s, completedTrace a performed c⟩
  | link :: links, c, s =>
      let name := Link.name link
      let p := Link.work link c s
      let told := .log (.debug "Performing chain link") :: p.notes.map .note
      match p.result with
      | .error e =>
          ⟨.error e, p.link :: links, p.creation, p.stores,
            told ++ failedTrace a name performed p.creation e⟩
      | .ok _ =>
          let performed := performed ++ [name]
          let told := told ++ performedTrace name
          if Link.halts p.link p.creation then
            ⟨.ok ⟨performed, some name⟩, p.link :: links, p.creation, p.stores,
              told ++ haltedTrace a name p.creation⟩
          else
            let rest := runFrom a performed links p.creation p.stores
            { rest with links := p.link :: rest.links, trace := told ++ rest.trace }

/-- Runs the chain on a creation. -/
def run (chain : Chain L) (c : Creation) (s : Stores) : Run L :=
  let a := attributes c
  let rest := runFrom a [] chain.links c s
  { rest with
    trace :=
      .log (.info "Executing pipeline chain") :: .event (.started a chain.names) :: rest.trace }

end Chain

end CiPipeline
