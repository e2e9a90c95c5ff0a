/-
  CiPipeline.Proofs.History.Retry
  ───────────────────────────────
  **Trying again until the stores work.**

  A creation may be run time and again while the stores fail, each time in another
  way and perhaps by another executor.  As long as all these attempts are aborted,
  they do not matter in the end: once the stores work, the creation comes to what it
  would have come to at its first attempt (`retry_alike`).
-/
import CiPipeline.Proofs.Chain.Retry
import CiPipeline.Proofs.History.Records

namespace CiPipeline

open Creation (Recalls)

/-- An attempt at a creation: which stores fail, and which executor runs. -/
structure Attempt where
  faults : Faults
  executor : Nat
  deriving DecidableEq, Repr

namespace World

section

variable [Regex.Engine]

/-! ## §1. Attempts. -/

/-- The run of an attempt at a creation. -/
def runIn (w : World) (c : Nat) (a : Attempt) : Run CreationLink :=
  (w.step (.fail a.faults)).runOf c a.executor

/-- The world after an attempt at a creation. -/
def attempt (c : Nat) (w : World) (a : Attempt) : World :=
  (w.step (.fail a.faults)).step (.run c a.executor)

/-- The world after attempts at a creation, one after the other. -/
def retrying (w : World) (c : Nat) (as : List Attempt) : World := as.foldl (attempt c) w

/-- What the attempts at a creation answer. -/
def answers (c : Nat) : World → List Attempt → List (Except CreationError Outcome)
  | _, [] => []
  | w, a :: as => (w.runIn c a).result :: answers c (attempt c w a) as

/-- A creation that may be tried time and again: it has a definition, its seed block only
sets variables and does so once and for all, and all executors are standard chains that
keep no other graph for it than its own. -/
structure Retryable (w : World) (c : Nat) : Prop where
  defined : ∃ d, (w.creations c).definition = some d
  block : (w.creations c).BlockSetsVars
  idempotent : (w.creations c).BlockIdempotent
  executors : ∀ e, ∃ memo, w.executors e = Chain.standardWith memo ∧ Recalls memo (w.creations c)

namespace Retryable

variable {w : World} {c : Nat}

/-- The run of an attempt is one of the standard chain. -/
theorem ending (h : w.Retryable c) (a : Attempt) :
    ∃ memo, Recalls memo (w.creations c) ∧
      Ending memo (w.creations c) { w.stores with faults := a.faults } (w.runIn c a) := by
  obtain ⟨memo, hexecutor, hmemo⟩ := h.executors a.executor
  refine ⟨memo, hmemo, ?_⟩
  show Ending memo _ _ ((w.executors a.executor).run (w.creations c) _)
  rw [hexecutor]
  exact run_ending memo _ _

/-- An attempt changes one creation and one executor. -/
theorem attempt_creation (w : World) (c : Nat) (a : Attempt) :
    (attempt c w a).creations c = (w.runIn c a).creation :=
  Function.update_self c _ _

/-- **A creation that may be tried again still may after an attempt.** -/
theorem attempt (h : w.Retryable c) (a : Attempt) : (World.attempt c w a).Retryable c := by
  obtain ⟨memo, hmemo, hending⟩ := h.ending a
  obtain ⟨d, hdefinition⟩ := h.defined
  obtain ⟨kept, hlinks, hkept⟩ := hending.recalls h.block hmemo
  have hway := hending.precedes h.block
  rw [← attempt_creation w c a] at hway hkept
  refine ⟨⟨d, hway.definition.trans hdefinition⟩, hway.blockSetsVars h.block,
    hway.blockIdempotent h.idempotent, ?_⟩
  -- only the executor of the attempt may have kept another graph than before
  refine (Function.forall_update_iff w.executors
    fun _ x => ∃ memo, x = Chain.standardWith memo ∧
      Recalls memo ((World.attempt c w a).creations c)).mpr ⟨⟨kept, ?_, hkept⟩, ?_⟩
  · show (⟨(w.runIn c a).links⟩ : Chain CreationLink) = _
    rw [hlinks]
  · intro e _
    obtain ⟨memo', hexecutor, hmemo'⟩ := h.executors e
    exact ⟨memo', hexecutor, hway.recalls hmemo'⟩

/-- An attempt that is aborted adds no records. -/
theorem attempt_pipelines (h : w.Retryable c) {a : Attempt}
    (haborted : (w.runIn c a).result.isOk = false) :
    (World.attempt c w a).stores.repository.pipelines = w.stores.repository.pipelines := by
  obtain ⟨memo, -, hending⟩ := h.ending a
  have hcomplete : (w.runIn c a).isComplete = false := by
    unfold Run.isComplete
    cases hresult : (w.runIn c a).result with
    | error e => rfl
    | ok o =>
        rw [hresult] at haborted
        cases haborted
  exact (hending.atomic h.block).unpersisted hcomplete

/-- **An attempt that is aborted does not matter in the end.** -/
theorem attempt_alike (h : w.Retryable c) {a : Attempt}
    (haborted : (w.runIn c a).result.isOk = false) :
    Run.Alike w.stores.repository.pipelines
      (Chain.standard.run ((World.attempt c w a).creations c) (World.attempt c w a).stores.mended)
      (Chain.standard.run (w.creations c) w.stores.mended) := by
  obtain ⟨memo, hmemo, hending⟩ := h.ending a
  obtain ⟨d, hdefinition⟩ := h.defined
  rw [attempt_creation]
  cases hresult : (w.runIn c a).result with
  | error e => exact hending.retried hdefinition h.block h.idempotent hmemo hresult
  | ok o =>
      rw [hresult] at haborted
      cases haborted

/-! ## §2. Many attempts. -/

/-- After attempts that have all been aborted, a creation that may be tried again still
may, and it comes to what it would have come to before. -/
theorem retrying (h : w.Retryable c) {as : List Attempt}
    (haborted : ∀ answer ∈ answers c w as, answer.isOk = false) :
    (w.retrying c as).Retryable c ∧
      Run.Alike w.stores.repository.pipelines
        (Chain.standard.run ((w.retrying c as).creations c) (w.retrying c as).stores.mended)
        (Chain.standard.run (w.creations c) w.stores.mended) := by
  induction as generalizing w with
  | nil =>
      refine ⟨h, ?_⟩
      obtain ⟨added, hadded⟩ :=
        (run_ending none (w.creations c) w.stores.mended).pipelines_eq_append h.block
      exact .of_upshot rfl hadded
  | cons a as ih =>
      have hfirst : (w.runIn c a).result.isOk = false := haborted _ List.mem_cons_self
      obtain ⟨hstill, halike⟩ := ih (h.attempt a)
        fun answer hanswer => haborted answer (List.mem_cons_of_mem _ hanswer)
      rw [h.attempt_pipelines hfirst] at halike
      exact ⟨hstill, halike.trans (h.attempt_alike hfirst)⟩

end Retryable

/-- **However often a creation has been tried in vain, once the stores work it comes to
what it would have come to at its first attempt**, whether a new executor runs or one of
those that are there. -/
theorem retry_alike {w : World} {c : Nat} (h : w.Retryable c) {as : List Attempt}
    (haborted : ∀ answer ∈ answers c w as, answer.isOk = false) {chain : Chain CreationLink}
    (hchain : chain = Chain.standard ∨ ∃ e, chain = (w.retrying c as).executors e) :
    Run.Alike w.stores.repository.pipelines
      (chain.run ((w.retrying c as).creations c) (w.retrying c as).stores.mended)
      (Chain.standard.run (w.creations c) w.stores.mended) := by
  obtain ⟨hstill, halike⟩ := h.retrying haborted
  obtain rfl | ⟨e, rfl⟩ := hchain
  · exact halike
  · -- an executor that has run before may have kept the graph, which is the same again
    obtain ⟨memo, hexecutor, hmemo⟩ := hstill.executors e
    obtain ⟨d, hdefinition⟩ := hstill.defined
    have hsame := hmemo.upshot_eq hstill.block hdefinition (w.retrying c as).stores.mended
    obtain ⟨added, -, hadded, -, -⟩ := halike.records
    rw [hexecutor]
    exact (Run.Alike.of_upshot hsame hadded).trans halike

end

theorem sample_retryable (c : Nat) : sample.Retryable c where
  defined := ⟨.buildAndTest, rfl⟩
  block := sample_blocks c
  idempotent := by
    intro block hblock p
    cases hblock
    exact congrArg (fun vars => { p with vars := vars }) (p.vars.insert_insert "TARGET" "all" "all")
  executors := fun _ => ⟨none, rfl, Creation.recalls_none _⟩

/-- Attempts in which one store after the other fails. -/
def sampleAttempts : List Attempt :=
  [⟨⟨true, false, none⟩, 0⟩, ⟨⟨false, true, none⟩, 0⟩, ⟨⟨false, false, some .insertRefused⟩, 1⟩,
   ⟨⟨false, false, some .commitRefused⟩, 0⟩]

/-- The executor of the last attempt runs once more, and only the number of the record
tells that the commit has been refused. -/
theorem retry_alike_sample :
    sample.Retryable 0 ∧ (∀ answer ∈ answers 0 sample sampleAttempts, answer.isOk = false) ∧
      ((sample.retrying 0 sampleAttempts).step (.fail .none)).stores.repository.nextId = 2 ∧
      sample.stores.repository.nextId = 1 ∧
      Run.Alike []
        (((sample.retrying 0 sampleAttempts).executors 0).run
          ((sample.retrying 0 sampleAttempts).creations 0)
          (sample.retrying 0 sampleAttempts).stores.mended)
        (Chain.standard.run (sample.creations 0) sample.stores.mended) :=
  ⟨sample_retryable 0, by decide +kernel, by decide +kernel, rfl,
    retry_alike (sample_retryable 0) (by decide +kernel) (.inr ⟨0, rfl⟩)⟩

end World

end CiPipeline
