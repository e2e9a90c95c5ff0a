/-
  CiPipeline.Chain.Link
  ─────────────────────
  **The contract of a link.**

  A link changes a creation and the stores.  A mistake of the user is recorded on
  the pipeline and makes the chain halt; an error aborts the chain at once.  What
  has been changed until then stays changed in both cases.
-/
import CiPipeline.Creation.Work

namespace CiPipeline

/-- What a link leaves behind when it has done its work. -/
structure Performed (L : Type) where
  result : Except CreationError Unit
  link : L
  creation : Creation
  stores : Stores
  notes : List Note

/-- The work, as that of a link which stays or becomes `link`. -/
def Work.leaving {L : Type} (w : Work) (link : L) : Performed L :=
  ⟨w.result, link, w.creation, w.stores, w.notes⟩

/-- The links of a type. -/
class Link (L : Type) where
  /-- The name of a link, for logs and events. -/
  name : L → String
  /-- What a link does to a creation. -/
  work : L → Creation → Stores → Performed L
  /-- The chain halts after the link. -/
  halts : L → Creation → Bool := fun _ c => c.pipeline.hasErrors

end CiPipeline
