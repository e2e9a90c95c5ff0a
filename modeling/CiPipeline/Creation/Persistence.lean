/-
  CiPipeline.Creation.Persistence
  ───────────────────────────────
  **Persisting a pipeline.**

  The record of the pipeline is inserted in a transaction of its own.  When the
  insert is refused the transaction is rolled back; the pipeline is only marked as
  created when the commit has succeeded.  A graph without jobs is not persisted.
-/
import CiPipeline.Creation.Work

namespace CiPipeline

/-- What is recorded when the graph has no jobs. -/
def emptyMessage : String := "No stages / jobs for this pipeline."

namespace Stores

/-- Inserts a record in a transaction of its own: its number, the stores after it,
and what is logged. -/
def persist (s : Stores) (record : StoredPipeline) :
    Except StoreError Int64 × Stores × List LogLine :=
  match s.beginTransaction with
  | (.error e, s) => (.error e, s, [])
  | (.ok t, s) =>
      let inserted := s.insert t record
      match inserted.result with
      | .error e =>
          -- whatever becomes of the rollback, the first refusal is the one that is passed on
          let undone := inserted.stores.rollback inserted.transaction
          match undone.result with
          | .ok _ => (.error e, undone.stores, [])
          | .error _ =>
              (.error e, undone.stores, [.warn "Rollback after failed insert also failed"])
      | .ok id =>
          let committed := inserted.stores.commit inserted.transaction
          match committed.result with
          | .ok _ => (.ok id, committed.stores, [])
          | .error e => (.error e, committed.stores, [])

end Stores

namespace Creation

/-- The creation with its pipeline created under a number. -/
def created (c : Creation) (id : Int64) : Creation :=
  { c with pipeline := { c.pipeline with id := some id, status := .created } }

/-- Persists the pipeline with its graph. -/
def create (c : Creation) (s : Stores) : Work :=
  match c.graph with
  | none => .abort .missingGraph c s []
  | some g =>
      if g.size = 0 then .done (c.reject emptyMessage .configError) s []
      else
        match s.persist (.ofGraph c.pipeline g) with
        | (.error e, s, log) => .abort (.persistence e) c s (log.map .log)
        | (.ok id, s, log) =>
            .done (c.created id) s ((log ++ [LogLine.info "Created pipeline"]).map .log)

end Creation

end CiPipeline
