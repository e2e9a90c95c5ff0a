/-
  CiPipeline.Ref.Protection
  ─────────────────────────
  **Which refs are protected.**

  A protection answers for the ref of a name in a project, a tag or a branch.  The
  common one is a list of globs for branches and another one for tags.
-/
import CiPipeline.Project.Basic
import CiPipeline.Ref.Glob

namespace CiPipeline

/-- A question about a ref: its project, its name, and whether it is a tag. -/
structure RefQuery where
  project : ProjectId
  refName : String
  tag : Bool
  deriving DecidableEq, Repr

/-- Answers whether a ref is protected. -/
abbrev Protection := RefQuery → Bool

namespace Protection

/-- The same answer for every ref. -/
def always (answer : Bool) : Protection := fun _ => answer

end Protection

/-- A name with wildcards for the refs of one kind, tags or branches. -/
structure RefPattern where
  tag : Bool
  pattern : String
  deriving DecidableEq, Repr

variable [Regex.Engine]

/-- The protected branches and tags of all projects. -/
structure ProtectedRefs where
  branches : List Glob
  tags : List Glob

namespace ProtectedRefs

/-- Nothing is protected. -/
def none : ProtectedRefs := ⟨[], []⟩

/-- Protects the refs of a kind that a glob matches, too; nothing if the glob is
refused. -/
def protecting? (p : ProtectedRefs) (r : RefPattern) : Option ProtectedRefs :=
  (Glob.ofPattern? r.pattern).map fun g =>
    if r.tag then { p with tags := p.tags ++ [g] } else { p with branches := p.branches ++ [g] }

/-- Protects the branches that a glob matches, too, unless it is refused. -/
def withBranch (p : ProtectedRefs) (pattern : String) : ProtectedRefs :=
  (p.protecting? ⟨false, pattern⟩).getD p

/-- Protects the tags that a glob matches, too, unless it is refused. -/
def withTag (p : ProtectedRefs) (pattern : String) : ProtectedRefs :=
  (p.protecting? ⟨true, pattern⟩).getD p

/-- A ref is protected if a glob for its kind matches its name. -/
def protection (p : ProtectedRefs) : Protection := fun q =>
  (if q.tag then p.tags else p.branches).any (·.isMatch q.refName)

end ProtectedRefs

end CiPipeline
