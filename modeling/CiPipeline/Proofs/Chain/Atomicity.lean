/-
  CiPipeline.Proofs.Chain.Atomicity
  ─────────────────────────────────
  **A run persists its pipeline exactly when it is complete.**

  Of the ways in which a run of the standard chain may end, only the complete one
  makes anything visible in the repository, and then it is the one record of the
  pipeline with its graph.  A run that is aborted leaves nothing on the pipeline
  that a user would see.
-/
import CiPipeline.Definition.Samples
import CiPipeline.Proofs.Chain.Ending

namespace CiPipeline

section

variable [Regex.Engine]

/-- The calls that a run may make on the repository: there is no transaction, or it
is ended, or it has never begun. -/
def RepositoryCall.attempts : List (List RepositoryCall) :=
  [[], [.begin], [.begin, .insert, .rollback], [.begin, .insert, .commit]]

/-- What a run on a creation makes of the repository, all or nothing. -/
structure Run.Atomic (c : Creation) (s : Stores) (r : Run CreationLink) : Prop where
  /-- A complete run adds the record of its pipeline, with the id that the pipeline is told. -/
  persisted : r.isComplete = true → ∃ g id, r.creation.graph = some g ∧
    r.stores.repository.pipelines = s.repository.pipelines ++
      [{ StoredPipeline.ofGraph r.creation.pipeline g with id := some id }] ∧
    r.creation.pipeline.id = some id ∧ r.creation.pipeline.status = .created ∧
    r.stores.calls = s.calls ++ [.begin, .insert, .commit]
  /-- Any other run adds nothing. -/
  unpersisted : r.isComplete = false →
    r.stores.repository.pipelines = s.repository.pipelines
  /-- An aborted run decides nothing about the pipeline. -/
  aborted : ∀ e, r.result = .error e → c.pipeline.SameVerdict r.creation.pipeline
  /-- No transaction is left open. -/
  calls : ∃ calls, r.stores.calls = s.calls ++ calls ∧
    calls ∈ RepositoryCall.attempts

/-- **However a run ends, it is atomic**, as long as the seed block only sets
variables. -/
theorem Ending.atomic {memo : Option GraphMemo} {c : Creation} {s : Stores}
    {r : Run CreationLink} (h : Ending memo c s r) (hblock : c.BlockSetsVars) :
    Run.Atomic c s r := by
  obtain ⟨hcomplete, hsame, hverdict⟩ | ⟨hcomplete, hverdict, fault, hrepository, hcalls⟩ |
    ⟨hcomplete, d, g, k, t, hready, -, hcreation, hrepository, hcalls⟩ := h.attempt hblock
  · -- the run has not come to the repository
    refine ⟨fun htrue => ?_, fun _ => ?_, hverdict, ⟨[], ?_, List.mem_cons_self⟩⟩
    · rw [hcomplete] at htrue
      cases htrue
    · rw [hsame.repository]
    · rw [hsame.calls, List.append_nil]
  · -- the repository has refused the record
    have hattempted : fault.attempted ∈ RepositoryCall.attempts := by
      cases fault <;> decide
    refine ⟨fun htrue => ?_, fun _ => ?_, fun _ _ => hverdict, ⟨_, hcalls, hattempted⟩⟩
    · rw [hcomplete] at htrue
      cases htrue
    · rw [hrepository]
      rfl
  · refine ⟨fun _ => ⟨g, s.repository.nextId, ?_, ?_, ?_, ?_, hcalls⟩, fun hfalse => ?_,
      fun e herror => ?_, ⟨_, hcalls, by decide⟩⟩
    · rw [hcreation]
      exact hready.graph_eq
    · rw [hrepository]
      rfl
    · rw [hcreation]
      rfl
    · rw [hcreation]
      rfl
    · rw [hcomplete] at hfalse
      cases hfalse
    · unfold Run.isComplete at hcomplete
      rw [herror] at hcomplete
      cases hcomplete

/-- **A run of the standard chain persists its pipeline exactly when it is complete,
and leaves nothing half done otherwise.** -/
theorem standard_run_atomic {c : Creation} (hblock : c.BlockSetsVars) (s : Stores) :
    Run.Atomic c s (Chain.standard.run c s) :=
  (run_ending none c s).atomic hblock

end

/-- A creation for the branch `main` with two jobs, one of which needs the other, and
with a seed block that sets a variable. -/
def Creation.sample : Creation :=
  ((Creation.of ⟨"run"⟩ ⟨⟨1⟩, "group/app"⟩ (.of ⟨1⟩ "main" default) .standard).withDefinition
    .buildAndTest).withSeedBlock fun p => { p with vars := p.vars.insert "TARGET" "all" }

theorem Creation.sample_blockSetsVars : Creation.sample.BlockSetsVars := by
  intro block hblock p
  cases hblock
  exact ⟨_, rfl⟩

/-- The run of the sample adds one record, and the id of the record is that of the pipeline. -/
theorem standard_run_atomic_sample :
    Creation.sample.BlockSetsVars ∧
      (Chain.standard.run Creation.sample .empty).isComplete = true ∧
      Run.Atomic .sample .empty (Chain.standard.run .sample .empty) ∧
      (Chain.standard.run Creation.sample .empty).creation.pipeline.id = some 1 ∧
      (Chain.standard.run Creation.sample .empty).stores.repository.pipelines.map
          (fun r => (r.id, r.iid, r.refPath, r.stages.map (·.name))) =
        [(some 1, some 1, "refs/heads/main", ["build", "test"])] :=
  ⟨Creation.sample_blockSetsVars, by decide +kernel,
    standard_run_atomic Creation.sample_blockSetsVars .empty, by decide +kernel,
    by decide +kernel⟩

end CiPipeline
