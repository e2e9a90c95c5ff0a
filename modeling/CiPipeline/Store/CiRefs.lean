/-
  CiPipeline.Store.CiRefs
  ───────────────────────
  **The registry of refs.**

  Each path of a project is registered at most once; the first registration gives
  it the next number, and later ones find what is there.
-/
import CiPipeline.Project.Basic

namespace CiPipeline

/-- The registered refs, in the order of their numbers. -/
structure CiRefs where
  refs : List CiRef
  deriving DecidableEq, Repr

namespace CiRefs

/-- Nothing is registered. -/
def empty : CiRefs := ⟨[]⟩

instance : Inhabited CiRefs := ⟨empty⟩

/-- The number of registered refs. -/
def size (r : CiRefs) : Nat := r.refs.length

/-- The registered ref of a path. -/
def find? (r : CiRefs) (project : ProjectId) (path : String) : Option CiRef :=
  r.refs.find? fun c => c.projectId = project && c.refPath = path

/-- The registered ref of a path, which is registered if it has not been. -/
def register (r : CiRefs) (project : ProjectId) (path : String) : CiRef × CiRefs :=
  match r.find? project path with
  | some c => (c, r)
  | none =>
      let c : CiRef := ⟨Int64.ofNat (r.size + 1), project, path⟩
      (c, ⟨r.refs ++ [c]⟩)

end CiRefs

end CiPipeline
