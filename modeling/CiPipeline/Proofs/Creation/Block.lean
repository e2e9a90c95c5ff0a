/-
  CiPipeline.Proofs.Creation.Block
  ────────────────────────────────
  **What a seed block does to a pipeline, act by act.**

  A seed block may set variables, add errors and drop the pipeline, as often as it likes
  and depending on the pipeline that it is given.  What it leaves behind can be told from
  its acts (`Pipeline.Marked`): the errors are those that it has added, and the pipeline has
  failed if it has been dropped and is undecided otherwise.
-/
import CiPipeline.Proofs.Creation.Frame

namespace CiPipeline

/-! ## §1. Acts. -/

/-- What a seed block may do to a pipeline. -/
inductive BlockAct where
  | insertVar (key value : String)
  | addError (message : String)
  | drop (reason : FailureReason)

namespace BlockAct

/-- The pipeline after an act. -/
def apply (p : Pipeline) : BlockAct → Pipeline
  | .insertVar key value => { p with vars := p.vars.insert key value }
  | .addError message => p.withError message
  | .drop reason => p.failFor reason

/-- The error that an act adds. -/
def message? : BlockAct → Option String
  | .insertVar _ _ => none
  | .addError message => some message
  | .drop _ => none

/-- The errors that acts add, in order. -/
def messages (acts : List BlockAct) : List String := acts.filterMap message?

/-- Some act adds an error. -/
def Adds (acts : List BlockAct) : Prop := ∃ message, .addError message ∈ acts

/-- Some act drops the pipeline. -/
def Drops (acts : List BlockAct) : Prop := ∃ reason, .drop reason ∈ acts

variable {acts acts' : List BlockAct}

theorem messages_eq_nil_iff : messages acts = [] ↔ ¬Adds acts := by
  unfold messages Adds
  rw [List.filterMap_eq_nil_iff, not_exists]
  constructor
  · intro h message hmem
    cases h _ hmem
  · intro h act hmem
    cases act with
    | insertVar key value => rfl
    | addError message => exact absurd hmem (h message)
    | drop reason => rfl

theorem not_drops_nil : ¬Drops [] := by
  intro h
  obtain ⟨reason, hmem⟩ := h
  cases hmem

theorem drops_append_iff : Drops (acts ++ acts') ↔ Drops acts ∨ Drops acts' := by
  unfold Drops
  simp only [List.mem_append, exists_or]

end BlockAct

/-- The seed block that does to a pipeline what a plan says. -/
def SeedBlock.doing (plan : Pipeline → List BlockAct) : SeedBlock := fun p =>
  (plan p).foldl BlockAct.apply p

/-! ## §2. The marks of acts. -/

namespace Pipeline

open BlockAct (Drops messages)

/-- From one state of a pipeline to another one, acts and nothing else have decided on it. -/
structure Marked (acts : List BlockAct) (p q : Pipeline) : Prop where
  errors : q.errors = p.errors ++ messages acts
  kept : ¬Drops acts → q.status = p.status ∧ q.failureReason = p.failureReason
  dropped : Drops acts → q.status = .failed ∧ q.failureReason ≠ none

variable {acts acts' : List BlockAct} {p q r : Pipeline}

/-- Where nothing is decided, there has been no act. -/
theorem SameVerdict.marked (h : p.SameVerdict q) : Marked [] p q := by
  refine ⟨?_, fun _ => ⟨h.status, h.failureReason⟩, ?_⟩
  · rw [h.errors]
    exact (List.append_nil _).symm
  · intro hdrops
    exact absurd hdrops BlockAct.not_drops_nil

/-- Acts after acts leave the marks of both. -/
theorem Marked.trans (h : Marked acts p q) (h' : Marked acts' q r) :
    Marked (acts ++ acts') p r := by
  refine ⟨?_, ?_, ?_⟩
  · rw [h'.errors, h.errors, List.append_assoc]
    unfold messages
    rw [List.filterMap_append]
  · intro hkept
    rw [BlockAct.drops_append_iff, not_or] at hkept
    obtain ⟨hstatus, hreason⟩ := h.kept hkept.1
    obtain ⟨hstatus', hreason'⟩ := h'.kept hkept.2
    exact ⟨hstatus'.trans hstatus, hreason'.trans hreason⟩
  · intro hdropped
    by_cases hlater : Drops acts'
    · exact h'.dropped hlater
    · -- dropped before, and left as it was since
      have hearlier : Drops acts := (BlockAct.drops_append_iff.mp hdropped).resolve_right hlater
      obtain ⟨hstatus, hreason⟩ := h.dropped hearlier
      obtain ⟨hstatus', hreason'⟩ := h'.kept hlater
      exact ⟨hstatus'.trans hstatus, hreason' ▸ hreason⟩

/-- The marks of a single act. -/
theorem marked_apply (p : Pipeline) (act : BlockAct) : Marked [act] p (act.apply p) := by
  cases act with
  | insertVar key value => exact ⟨(List.append_nil _).symm, fun _ => ⟨rfl, rfl⟩, by simp [Drops]⟩
  | addError message => exact ⟨rfl, fun _ => ⟨rfl, rfl⟩, by simp [Drops]⟩
  | drop reason =>
      refine ⟨(List.append_nil _).symm, fun hkept => absurd ⟨reason, by simp⟩ hkept, ?_⟩
      intro _
      exact ⟨rfl, nofun⟩

/-- **A seed block leaves the marks of its acts.** -/
theorem marked_foldl (acts : List BlockAct) :
    ∀ p : Pipeline, Marked acts p (acts.foldl BlockAct.apply p) := by
  induction acts with
  | nil => intro p; exact (SameVerdict.refl p).marked
  | cons act acts ih => intro p; exact (marked_apply p act).trans (ih (act.apply p))

/-- A pipeline that had no errors has some exactly if an act has added one. -/
theorem Marked.errors_ne_nil_iff (h : Marked acts p q) (hclean : p.errors = []) :
    q.errors ≠ [] ↔ BlockAct.Adds acts := by
  rw [h.errors, hclean, List.nil_append, ne_eq, BlockAct.messages_eq_nil_iff, Classical.not_not]

/-- A pipeline that was new has failed exactly if an act has dropped it. -/
theorem Marked.failed_iff (h : Marked acts p q) (hnew : p.status = .new) :
    q.status = .failed ↔ Drops acts := by
  refine ⟨?_, fun hdrops => (h.dropped hdrops).1⟩
  intro hfailed
  by_cases hdrops : Drops acts
  · exact hdrops
  · -- otherwise it would be as new as before
    rw [(h.kept hdrops).1, hnew] at hfailed
    cases hfailed

end Pipeline

end CiPipeline
