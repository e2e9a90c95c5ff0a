/-
  CiPipeline.Pipeline.Registration
  ────────────────────────────────
  **A pipeline's number and registered ref.**

  A pipeline that has a number within its project keeps it, and so it does with
  its registered ref; otherwise the stores are asked once.  A store that refuses
  leaves the pipeline as it is.
-/
import CiPipeline.Store.Stores

namespace CiPipeline

/-- What a step on a pipeline leaves behind. -/
structure Registration (ε α : Type) where
  result : Except ε α
  pipeline : Pipeline
  stores : Stores
  log : List LogLine

namespace Pipeline

/-- The number of a pipeline within its project, taken from the sequence of the
project if there is none. -/
def takeNumber (p : Pipeline) (s : Stores) : Registration SequenceError Int64 :=
  match p.iid with
  | some iid => ⟨.ok iid, p, s, []⟩
  | none =>
      match s.nextNumber (.pipelines p.projectId) with
      | (.ok iid, s) => ⟨.ok iid, { p with iid := some iid }, s, Sequences.nextLog (.ok iid)⟩
      | (.error e, s) => ⟨.error e, p, s, []⟩

/-- The registered ref of a pipeline, registered if there is none. -/
def register (p : Pipeline) (s : Stores) : Registration StoreError CiRef :=
  match p.ciRef with
  | some ciRef => ⟨.ok ciRef, p, s, []⟩
  | none =>
      match s.register p.projectId p.refPath with
      | (.ok ciRef, s) => ⟨.ok ciRef, { p with ciRef := some ciRef }, s, []⟩
      | (.error e, s) => ⟨.error e, p, s, []⟩

end Pipeline

end CiPipeline
