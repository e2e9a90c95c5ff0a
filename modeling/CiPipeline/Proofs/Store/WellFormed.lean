/-
  CiPipeline.Proofs.Store.WellFormed
  ──────────────────────────────────
  **What a record of the repository ought to look like.**

  The record of a pipeline with a valid graph is well formed: its stages are in
  order and hold jobs, its jobs are distinct and in their places, and what they
  need lies within the record and never leads back (`ofGraph_wellFormed`).  The
  numbers of the records are those of their inserts (`Repository.Sound`).
-/
import CiPipeline.Proofs.Graph.Structure
import CiPipeline.Proofs.Store.Persisting

namespace CiPipeline

open CiPipeline.Graph (AcyclicRel Job Stage)

/-! ## §1. Records. -/

namespace StoredPipeline

/-- The jobs of a record, stage after stage. -/
def jobs (r : StoredPipeline) : List StoredJob := r.stages.flatMap (·.jobs)

/-- A job of the record needs another one. -/
def Needs (r : StoredPipeline) (a b : String) : Prop :=
  ∃ j ∈ r.jobs, j.name = a ∧ b ∈ j.needs.map (·.job)

/-- A record holds a numbered pipeline whose stages and jobs form a graph without
rings. -/
structure WellFormed (r : StoredPipeline) : Prop where
  numbered : ∃ n, r.iid = some n
  nonempty : r.stages ≠ []
  stages_nonempty : ∀ s ∈ r.stages, s.jobs ≠ []
  increasing : r.stages.Pairwise (·.position < ·.position)
  stages_nodup : (r.stages.map (·.name)).Nodup
  jobs_nodup : (r.jobs.map (·.name)).Nodup
  placed : ∀ s ∈ r.stages, ∀ j ∈ s.jobs, j.stage = s.name ∧ j.stageIdx = s.position
  runs : ∀ j ∈ r.jobs, j.when ≠ .never
  needs_closed : ∀ j ∈ r.jobs, ∀ name ∈ j.needs.map (·.job), name ∈ r.jobs.map (·.name)
  needs_nodup : ∀ j ∈ r.jobs, (j.needs.map (·.job)).Nodup
  acyclic : AcyclicRel r.Needs

theorem ofGraph_jobs (p : Pipeline) (g : Graph) :
    (ofGraph p g).jobs = g.jobs.map StoredJob.ofJob := by
  show (g.stages.map StoredStage.ofStage).flatMap (·.jobs) = (g.stages.flatMap (·.jobs)).map _
  rw [List.flatMap_map, List.map_flatMap]
  rfl

/-- A kept job needs the jobs that it needs in the graph. -/
theorem ofJob_needs (j : Job) : (StoredJob.ofJob j).needs.map (·.job) = j.needs.map (·.job) := by
  show (j.needs.map StoredNeed.ofEdge).map (·.job) = _
  rw [List.map_map]
  rfl

theorem ofGraph_names (p : Pipeline) (g : Graph) :
    (ofGraph p g).jobs.map (·.name) = g.jobs.map (·.name) := by
  rw [ofGraph_jobs, List.map_map]
  rfl

theorem ofGraph_needs (p : Pipeline) (g : Graph) : (ofGraph p g).Needs = g.Needs := by
  funext a b
  unfold Needs Graph.Needs
  rw [ofGraph_jobs]
  refine propext ⟨?_, ?_⟩
  · intro h
    obtain ⟨j, hj, hname, hneed⟩ := h
    obtain ⟨i, hi, rfl⟩ := List.mem_map.mp hj
    rw [ofJob_needs] at hneed
    exact ⟨i, hi, hname, hneed⟩
  · intro h
    obtain ⟨j, hj, hname, hneed⟩ := h
    exact ⟨_, List.mem_map_of_mem hj, hname, by rw [ofJob_needs]; exact hneed⟩

/-- The number of a record says nothing about its form. -/
theorem WellFormed.withId {r : StoredPipeline} (h : r.WellFormed) (id : Int64) :
    (r.withId id).WellFormed :=
  ⟨h.numbered, h.nonempty, h.stages_nonempty, h.increasing, h.stages_nodup, h.jobs_nodup,
    h.placed, h.runs, h.needs_closed, h.needs_nodup, h.acyclic⟩

/-- **The record of a numbered pipeline with a valid graph that has jobs is well
formed.** -/
theorem ofGraph_wellFormed [Regex.Engine] {p : Pipeline} {g : Graph}
    (hnumbered : ∃ n, p.iid = some n) (hbuilt : g.Built) (hvalid : g.isValid = true)
    (hsize : g.size ≠ 0) : (ofGraph p g).WellFormed := by
  obtain ⟨hshape, hruns, hacyclic⟩ := hbuilt.of_isValid hvalid
  refine ⟨hnumbered, ?_, ?_, ?_, ?_, ?_, ?_, ?_, ?_, ?_, ?_⟩
  · -- a graph without stages has no jobs
    intro hnone
    have hstages : g.stages = [] := List.map_eq_nil_iff.mp hnone
    apply hsize
    unfold Graph.size
    rw [hstages]
    rfl
  · intro s hs
    obtain ⟨stage, hstage, rfl⟩ := List.mem_map.mp hs
    intro hnone
    exact hshape.nonempty stage hstage (List.map_eq_nil_iff.mp hnone)
  · exact List.pairwise_map.mpr hshape.increasing
  · show ((g.stages.map StoredStage.ofStage).map (·.name)).Nodup
    rw [List.map_map]
    exact hshape.stages_nodup
  · rw [ofGraph_names]
    exact hshape.jobs_nodup
  · intro s hs j hj
    obtain ⟨stage, hstage, rfl⟩ := List.mem_map.mp hs
    obtain ⟨job, hjob, rfl⟩ := List.mem_map.mp hj
    exact hshape.placed stage hstage job hjob
  · intro j hj
    rw [ofGraph_jobs] at hj
    obtain ⟨job, hjob, rfl⟩ := List.mem_map.mp hj
    exact hruns job hjob
  · intro j hj name hname
    rw [ofGraph_jobs] at hj
    obtain ⟨job, hjob, rfl⟩ := List.mem_map.mp hj
    rw [ofJob_needs] at hname
    rw [ofGraph_names]
    exact hshape.needs_closed job hjob name hname
  · intro j hj
    rw [ofGraph_jobs] at hj
    obtain ⟨job, hjob, rfl⟩ := List.mem_map.mp hj
    rw [ofJob_needs]
    exact hshape.needs_nodup job hjob
  · rw [ofGraph_needs]
    exact hacyclic

end StoredPipeline

/-! ## §2. The repository. -/

namespace Repository

/-- All records are well formed, and their numbers are those of some of the inserts,
in order. -/
structure Sound (r : Repository) : Prop where
  wellFormed : ∀ p ∈ r.pipelines, p.WellFormed
  ids : ∃ inserts : List Nat, r.pipelines.map (·.id) = inserts.map (some <| Int64.ofNat ·) ∧
    inserts.Pairwise (· < ·) ∧ ∀ k ∈ inserts, k ≤ r.issued

theorem sound_empty : Sound empty where
  wellFormed := fun _ hp => absurd hp List.not_mem_nil
  ids := ⟨[], rfl, .nil, fun _ hk => absurd hk List.not_mem_nil⟩

theorem Sound.burning {r : Repository} (h : r.Sound) (n : Nat) : (r.burning n).Sound := by
  obtain ⟨inserts, hids, hordered, hbound⟩ := h.ids
  refine ⟨h.wellFormed, inserts, hids, hordered, ?_⟩
  intro k hk
  show k ≤ r.issued + n
  have := hbound k hk
  omega

theorem Sound.adding {r : Repository} (h : r.Sound) {kept : StoredPipeline}
    (hkept : kept.WellFormed) : (r.adding kept).Sound := by
  obtain ⟨inserts, hids, hordered, hbound⟩ := h.ids
  constructor
  · intro p hp
    rcases List.mem_append.mp hp with hp | hp
    · exact h.wellFormed p hp
    · rw [List.mem_singleton.mp hp]
      exact hkept.withId r.nextId
  · refine ⟨inserts ++ [r.issued + 1], ?_, ?_, ?_⟩
    · show (r.pipelines ++ [kept.withId r.nextId]).map (·.id) = _
      rw [List.map_append, List.map_append, hids]
      rfl
    · -- the new insert comes after all others
      refine List.pairwise_append.mpr ⟨hordered, List.pairwise_singleton _ _, ?_⟩
      intro k hk m hm
      have := hbound k hk
      rw [List.mem_singleton.mp hm]
      omega
    · intro k hk
      show k ≤ r.issued + 1
      rcases List.mem_append.mp hk with hk | hk
      · have := hbound k hk
        omega
      · rw [List.mem_singleton.mp hk]

/-- **As long as the counter has not come to its end, every record has a number and
no two have the same.** -/
theorem Sound.ids_nodup {r : Repository} (h : r.Sound) (hissued : r.issued < 2 ^ 63) :
    (∀ p ∈ r.pipelines, ∃ id, p.id = some id) ∧ (r.pipelines.map (·.id)).Nodup := by
  obtain ⟨inserts, hids, hordered, hbound⟩ := h.ids
  constructor
  · intro p hp
    have hmem : p.id ∈ r.pipelines.map (·.id) := List.mem_map_of_mem hp
    rw [hids] at hmem
    obtain ⟨k, -, hk⟩ := List.mem_map.mp hmem
    exact ⟨Int64.ofNat k, hk.symm⟩
  · rw [hids]
    refine List.Nodup.map_on ?_ (hordered.imp Nat.ne_of_lt)
    intro k hk m hm heq
    exact ofNat_inj (Nat.lt_of_le_of_lt (hbound k hk) hissued)
      (Nat.lt_of_le_of_lt (hbound m hm) hissued) (Option.some.inj heq)

end Repository

end CiPipeline
