/-
  CiPipeline.Store.Sequence
  ─────────────────────────
  **Numbers within a scope.**

  A scope hands out its numbers in increasing order and without gaps, starting
  with one; a number is never handed out twice and never given back.  Scopes do
  not know of each other.  Main statement: `current?_set`.
-/
import CiPipeline.Log
import CiPipeline.Project.Basic

namespace CiPipeline

open Json (Codec Field Record)

/-! ## §1. Scopes. -/

/-- What is numbered. -/
inductive SequenceUsage where
  | ciPipelines
  deriving DecidableEq, Repr, Inhabited

namespace SequenceUsage

/-- The name of what is numbered. -/
def name : SequenceUsage → String
  | .ciPipelines => "ci_pipelines"

/-- The written form of a usage. -/
def codec : Codec SequenceUsage := .variants [("ci_pipelines", .ciPipelines)] name

end SequenceUsage

/-- The scope within which numbers are distinct. -/
structure SequenceScope where
  usage : SequenceUsage
  projectId : ProjectId
  deriving DecidableEq, Repr, Inhabited

namespace SequenceScope

/-- The scope of the pipelines of a project. -/
def pipelines (project : ProjectId) : SequenceScope := ⟨.ciPipelines, project⟩

/-- The text of a scope. -/
def text (s : SequenceScope) : String := s.projectId.text ++ "/" ++ s.usage.name

/-- The fields of a scope. -/
def record :=
  Record.cons (.required "usage" SequenceUsage.codec) <|
  .cons (.required "project_id" ProjectId.codec) <|
  .nil

/-- The written form of a scope. -/
def codec : Codec SequenceScope :=
  record.codec "SequenceScope" (fun (usage, project, _) => ⟨usage, project⟩)
    (fun s => (s.usage, s.projectId, ()))

end SequenceScope

/-! ## §2. Refusals. -/

/-- Why there is no number. -/
inductive SequenceError where
  /-- The scope has handed out the greatest number. -/
  | exhausted (scope : SequenceScope)
  /-- The store itself fails. -/
  | backend (detail : String)
  deriving DecidableEq, Repr

/-- The message of a refusal. -/
def SequenceError.message : SequenceError → String
  | .exhausted scope => "sequence exhausted for " ++ scope.text
  | .backend detail => "sequence backend error: " ++ detail

/-! ## §3. The store. -/

/-- The last number of each scope that has been used. -/
structure Sequences where
  entries : List (SequenceScope × Int64)
  deriving DecidableEq, Repr

namespace Sequences

/-- No scope has been used. -/
def empty : Sequences := ⟨[]⟩

instance : Inhabited Sequences := ⟨empty⟩

/-- One scope goes on after a number. -/
def goingOnAfter (scope : SequenceScope) (last : Int64) : Sequences := ⟨[(scope, last)]⟩

/-- The last number of a scope, if it has been used. -/
def current? (s : Sequences) (scope : SequenceScope) : Option Int64 :=
  (s.entries.find? fun e => e.1 = scope).map (·.2)

/-- The entries with another last number of a scope. -/
def setEntry (scope : SequenceScope) (n : Int64) :
    List (SequenceScope × Int64) → List (SequenceScope × Int64)
  | [] => [(scope, n)]
  | e :: rest => if e.1 = scope then (scope, n) :: rest else e :: setEntry scope n rest

/-- The store with another last number of a scope. -/
def set (s : Sequences) (scope : SequenceScope) (n : Int64) : Sequences :=
  ⟨setEntry scope n s.entries⟩

/-- The next number of a scope, and the store after it. -/
def next (s : Sequences) (scope : SequenceScope) : Except SequenceError Int64 × Sequences :=
  let last := (s.current? scope).getD 0
  if last = Int64.maxValue then (.error (.exhausted scope), s)
  else (.ok (last + 1), s.set scope (last + 1))

/-- What is logged about a number. -/
def nextLog : Except SequenceError Int64 → List LogLine
  | .ok _ => [.debug "Allocated internal id"]
  | .error _ => []

/-! ## §4. Laws. -/

/-- **A scope has the number that it was given; all others keep theirs.** -/
theorem current?_set (s : Sequences) (scope other : SequenceScope) (n : Int64) :
    (s.set scope n).current? other = if other = scope then some n else s.current? other := by
  cases s with
  | mk entries =>
    simp only [set, current?]
    induction entries with
    | nil =>
      by_cases h : other = scope
      · simp [setEntry, h]
      · simp [setEntry, h, Ne.symm h]
    | cons e rest ih =>
      by_cases he : e.1 = scope
      · by_cases h : other = scope
        · simp [setEntry, he, h]
        · have h' : ¬scope = other := fun heq => h heq.symm
          simp [setEntry, he, h, h']
      · by_cases hother : e.1 = other
        · have h : ¬other = scope := fun heq => he (hother.trans heq)
          simp [setEntry, hother, h]
        · simp only [setEntry, he, if_false, List.find?_cons, hother, decide_false]
          exact ih

end Sequences

end CiPipeline
