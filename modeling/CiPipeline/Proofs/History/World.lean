/-
  CiPipeline.Proofs.History.World
  ───────────────────────────────
  **Histories: runs on many creations, one after the other.**

  A world holds creations and executors, each under a number of its own, and the
  stores that they share.  An executor may run again, on the same creation or on
  another one, and it keeps its links from run to run; in between a definition may
  be replaced, and stores may fail and recover.  Executors that start as the
  standard chain stay so up to the graph that they keep, which is always one that
  has been built (`Sound.play`).
-/
import CiPipeline.Proofs.Chain.Ending
import Mathlib.Logic.Function.Basic

namespace CiPipeline

open Creation (KeepsBuilt)

/-! ## §1. Worlds and acts. -/

variable [Regex.Engine]

/-- Creations and executors with the stores that they share. -/
structure World where
  creations : Nat → Creation
  executors : Nat → Chain CreationLink
  stores : Stores

/-- What may happen in a world. -/
inductive Act where
  /-- An executor runs its chain on a creation. -/
  | run (creation executor : Nat)
  /-- A creation is given another definition, or loses the one it has. -/
  | redefine (creation : Nat) (definition : Option Definition)
  /-- From now on, other stores fail than before. -/
  | fail (faults : Faults)
  /-- Other numbers and other registered refs take the place of those that are there. -/
  | exchange (sequences : Sequences) (ciRefs : CiRefs)

namespace World

/-- The run of an executor on a creation, here and now. -/
def runOf (w : World) (creation executor : Nat) : Run CreationLink :=
  (w.executors executor).run (w.creations creation) w.stores

/-- The world after an act. -/
def step (w : World) : Act → World
  | .run c e =>
      let r := w.runOf c e
      ⟨Function.update w.creations c r.creation, Function.update w.executors e ⟨r.links⟩, r.stores⟩
  | .redefine c d =>
      { w with
        creations := Function.update w.creations c { w.creations c with definition := d } }
  | .fail faults => { w with stores := { w.stores with faults := faults } }
  | .exchange sequences ciRefs =>
      { w with stores := { w.stores with sequences := sequences, ciRefs := ciRefs } }

/-- The world after acts, one after the other. -/
def play (w : World) (acts : List Act) : World := acts.foldl step w

/-! ## §2. What stays true of executors and creations. -/

/-- All executors are the standard chain up to what their first links keep, and no
seed block does more than set variables. -/
structure Sound (w : World) : Prop where
  executors : ∀ e, ∃ memo, w.executors e = Chain.standardWith memo ∧ KeepsBuilt memo
  blocks : ∀ c, (w.creations c).BlockSetsVars

/-- New executors of the standard chain have kept nothing yet. -/
theorem sound_of_standard {w : World} (hexecutors : ∀ e, w.executors e = Chain.standard)
    (hblocks : ∀ c, (w.creations c).BlockSetsVars) : w.Sound where
  executors := fun e => ⟨none, hexecutors e, nofun⟩
  blocks := hblocks

/-- Every run in a sound world is one of the standard chain. -/
theorem Sound.ending {w : World} (h : w.Sound) (c e : Nat) :
    ∃ memo, KeepsBuilt memo ∧ Ending memo (w.creations c) w.stores (w.runOf c e) := by
  obtain ⟨memo, hexecutor, hmemo⟩ := h.executors e
  refine ⟨memo, hmemo, ?_⟩
  unfold runOf
  rw [hexecutor]
  exact run_ending memo _ _

theorem Sound.step {w : World} (h : w.Sound) (a : Act) : (w.step a).Sound := by
  cases a with
  | run c e =>
      obtain ⟨memo, hmemo, hending⟩ := h.ending c e
      obtain ⟨kept, hlinks, hkept⟩ := hending.links (h.blocks c) hmemo
      have hblocks := (hending.precedes (h.blocks c)).blockSetsVars (h.blocks c)
      -- only the one executor and the one creation change
      constructor
      · refine (Function.forall_update_iff w.executors
          fun _ x => ∃ memo, x = Chain.standardWith memo ∧ KeepsBuilt memo).mpr
          ⟨⟨kept, ?_, hkept⟩, fun e' _ => h.executors e'⟩
        rw [hlinks]
      · exact (Function.forall_update_iff w.creations fun _ d => d.BlockSetsVars).mpr
          ⟨hblocks, fun c' _ => h.blocks c'⟩
  | redefine c d =>
      refine ⟨h.executors, ?_⟩
      exact (Function.forall_update_iff w.creations fun _ d => d.BlockSetsVars).mpr
        ⟨h.blocks c, fun c' _ => h.blocks c'⟩
  | fail faults => exact ⟨h.executors, h.blocks⟩
  | exchange sequences ciRefs => exact ⟨h.executors, h.blocks⟩

/-- **What is sound stays sound, whatever happens.** -/
theorem Sound.play {w : World} (h : w.Sound) (acts : List Act) : (w.play acts).Sound := by
  induction acts generalizing w with
  | nil => exact h
  | cons a acts ih => exact ih (h.step a)

end World

end CiPipeline
