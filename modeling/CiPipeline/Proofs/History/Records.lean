/-
  CiPipeline.Proofs.History.Records
  ─────────────────────────────────
  **What the repository holds after any history.**

  A run adds the record of a numbered pipeline with a valid graph, or no record at
  all; nothing else that happens in a world changes the records.  So every record
  is well formed, and each has a number of its own (`committed_wellFormed`).
-/
import CiPipeline.Proofs.Chain.Atomicity
import CiPipeline.Proofs.History.World
import CiPipeline.Proofs.Store.WellFormed

namespace CiPipeline.World

section

variable [Regex.Engine]

/-- A run leaves a sound repository sound, whether it adds a record or not. -/
theorem Sound.step_repository {w : World} (h : w.Sound) (hrecords : w.stores.repository.Sound)
    (a : Act) : (w.step a).stores.repository.Sound := by
  cases a with
  | run c e =>
      obtain ⟨memo, hmemo, hending⟩ := h.ending c e
      show (w.runOf c e).stores.repository.Sound
      obtain ⟨-, n, hrepository⟩ | ⟨-, g, hbuilt, hvalid, hsize, hnumbered, hrepository⟩ :=
        hending.repository (h.blocks c) hmemo
      · -- a refused commit has used up a number, and that is all
        rw [hrepository]
        exact hrecords.burning n
      · rw [hrepository]
        exact hrecords.adding (StoredPipeline.ofGraph_wellFormed hnumbered hbuilt hvalid hsize)
  | redefine c d => exact hrecords
  | fail faults => exact hrecords
  | exchange sequences ciRefs => exact hrecords

theorem Sound.play_repository {w : World} (h : w.Sound) (hrecords : w.stores.repository.Sound)
    (acts : List Act) : (w.play acts).stores.repository.Sound := by
  induction acts generalizing w with
  | nil => exact hrecords
  | cons a acts ih => exact ih (h.step a) (h.step_repository hrecords a)

/-- **Whatever runs and in whatever order, every record is well formed and has a
number of its own.** -/
theorem committed_wellFormed {w : World} (hexecutors : ∀ e, w.executors e = Chain.standard)
    (hblocks : ∀ c, (w.creations c).BlockSetsVars) (hempty : w.stores.repository = .empty)
    (acts : List Act) (hissued : (w.play acts).stores.repository.issued < 2 ^ 63) :
    (∀ r ∈ (w.play acts).stores.repository.pipelines, r.WellFormed ∧ ∃ id, r.id = some id) ∧
      ((w.play acts).stores.repository.pipelines.map (·.id)).Nodup := by
  have hstart : w.stores.repository.Sound := by
    rw [hempty]
    exact Repository.sound_empty
  have hrecords := (sound_of_standard hexecutors hblocks).play_repository hstart acts
  obtain ⟨hnumbered, hnodup⟩ := hrecords.ids_nodup hissued
  exact ⟨fun r hr => ⟨hrecords.wellFormed r hr, hnumbered r hr⟩, hnodup⟩

end

/-- Creations of one kind in a new world, each with an identity of its own. -/
def sample : World where
  creations := fun n => { Creation.sample with runId := ⟨toString n⟩ }
  executors := fun _ => Chain.standard
  stores := .empty

theorem sample_blocks (c : Nat) : (sample.creations c).BlockSetsVars :=
  Creation.sample_blockSetsVars

/-- Two creations run on one executor and a third one on another, first in vain. -/
def sampleActs : List Act :=
  [.run 0 0, .run 1 0, .fail ⟨false, false, some .commitRefused⟩, .run 2 1, .fail .none, .run 2 1]

theorem committed_wellFormed_sample :
    (sample.play sampleActs).stores.repository.pipelines.map (·.id) = [some 1, some 2, some 4] ∧
      (∀ r ∈ (sample.play sampleActs).stores.repository.pipelines,
        r.WellFormed ∧ ∃ id, r.id = some id) ∧
      ((sample.play sampleActs).stores.repository.pipelines.map (·.id)).Nodup :=
  ⟨by decide +kernel,
    committed_wellFormed (fun _ => rfl) sample_blocks rfl sampleActs (by decide +kernel)⟩

end CiPipeline.World
