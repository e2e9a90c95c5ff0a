/-
  CiPipeline.Proofs.History.Finality
  ──────────────────────────────────
  **When terminal statuses are final.**

  Any executors may run on a creation, and between the runs its definition may be
  replaced.  A status that says that the pipeline is made, or that it has failed for
  good, stays as it is exactly as long as no link has a turn that overturns it
  (`statuses_final_iff`) — and nothing keeps such turns from coming.
-/
import CiPipeline.Proofs.Chain.Finality
import CiPipeline.Proofs.History.Records

namespace CiPipeline.World

section

variable [Regex.Engine]

/-- The turns that the links of an act have on a creation. -/
def turnsIn (w : World) (c : Nat) : Act → List (Turn CreationLink)
  | .run c' e =>
      if c' = c then Chain.turns (w.executors e).links (w.creations c) w.stores else []
  | _ => []

/-- The turns that links have on a creation, act after act. -/
def turnsOf (c : Nat) : World → List Act → List (Turn CreationLink)
  | _, [] => []
  | w, a :: acts => w.turnsIn c a ++ turnsOf c (w.step a) acts

/-- The statuses of a creation's pipeline: the one that it has, and the one after each turn. -/
def statuses (w : World) (c : Nat) (acts : List Act) : List Status :=
  (w.creations c).pipeline.status :: (turnsOf c w acts).map Turn.after

/-- Only turns change a status. -/
theorem threaded_step (w : World) (c : Nat) (a : Act) :
    Turn.Threaded (w.creations c).pipeline.status (w.turnsIn c a)
      ((w.step a).creations c).pipeline.status := by
  cases a with
  | run c' e =>
      show Turn.Threaded _ _
        (Function.update w.creations c' (w.runOf c' e).creation c).pipeline.status
      unfold turnsIn
      dsimp only
      by_cases hc : c' = c
      · subst hc
        rw [if_pos rfl, Function.update_self]
        exact Chain.threaded _ _ _ _ _
      · rw [if_neg hc, Function.update_of_ne (Ne.symm hc)]
        exact .nil _
  | redefine c' d =>
      show Turn.Threaded _ []
        (Function.update w.creations c' { w.creations c' with definition := d } c).pipeline.status
      by_cases hc : c' = c
      · subst hc
        rw [Function.update_self]
        exact .nil _
      · rw [Function.update_of_ne (Ne.symm hc)]
        exact .nil _
  | fail faults => exact .nil _
  | exchange sequences ciRefs => exact .nil _

/-- **A status goes from turn to turn, whatever else happens.** -/
theorem threaded_play (w : World) (c : Nat) (acts : List Act) :
    Turn.Threaded (w.creations c).pipeline.status (turnsOf c w acts)
      ((w.play acts).creations c).pipeline.status := by
  induction acts generalizing w with
  | nil => exact .nil _
  | cons a acts ih => exact (w.threaded_step c a).append (ih (w.step a))

/-- **The terminal statuses of a pipeline are final exactly as long as no turn overturns one of
them.** -/
theorem statuses_final_iff (w : World) (c : Nat) (acts : List Act) :
    (w.statuses c acts).Pairwise Status.MayPrecede ↔ ∀ t ∈ turnsOf c w acts, ¬t.Overturns := by
  unfold statuses
  rw [(w.threaded_play c acts).final_iff]
  refine forall₂_congr fun t _ => ?_
  rw [Turn.overturns_iff]
  exact not_and_not_right.symm

end

/-- The sample with an executor that only persists. -/
def persisting : World :=
  { sample with executors := Function.update sample.executors 2 ⟨[.create]⟩ }

/-- A pipeline is made, then its ref is dropped by new rules, and then it is persisted again. -/
def overturning : List Act := [.run 0 0, .redefine 0 (some .filteredOnMain), .run 0 1, .run 0 2]

/-- Neither is a pipeline that is made made for good, nor has one that has failed failed for
good. -/
theorem statuses_not_final :
    persisting.statuses 0 overturning =
        [.new, .new, .new, .new, .created, .created, .failed, .created] ∧
      ¬(persisting.statuses 0 overturning).Pairwise Status.MayPrecede := by
  decide +kernel

end CiPipeline.World
