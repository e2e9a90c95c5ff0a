/-
  CiPipeline.Creation.Work
  ────────────────────────
  **What a step of a creation leaves behind.**

  A step is done, or it is aborted by an error.  Either way there are a creation
  and stores afterwards, and what has been told on the way.
-/
import CiPipeline.Creation.Basic
import CiPipeline.Store.Stores

namespace CiPipeline

/-- What a step of a creation leaves behind. -/
structure Work where
  result : Except CreationError Unit
  creation : Creation
  stores : Stores
  notes : List Note

namespace Work

/-- The step is done. -/
def done (c : Creation) (s : Stores) (notes : List Note) : Work := ⟨.ok (), c, s, notes⟩

/-- The step is aborted. -/
def abort (e : CreationError) (c : Creation) (s : Stores) (notes : List Note) : Work :=
  ⟨.error e, c, s, notes⟩

end Work

end CiPipeline
