/-
  CiPipeline.Proofs.Graph.Pruning
  ───────────────────────────────
  **A job that its rules exclude might as well not be declared.**

  A definition is pruned by deleting the jobs that their rules exclude for a ref, and the
  needs that name them; a stage stays, with or without jobs.  Nothing is wrong with the
  declarations that are left, and every name that stood for a job that takes part still does
  (§2).  In a valid graph a need of an excluded job is optional, so it was dropped anyway
  (`resolved_pruned`): each stage is drafted as before.  Main statement: `of_pruned`.
-/
import CiPipeline.Proofs.Graph.Validity
import CiPipeline.Regex.Standard

namespace CiPipeline.Graph

section

variable [Regex.Engine]

/-! ## §1. Definitions without excluded jobs. -/

instance (refName : String) (job : JobDefinition) : Decidable (Excluded refName job) :=
  inferInstanceAs (Decidable (_ = _))

/-- The names of the jobs that their rules exclude for a ref. -/
def excludedNames (refName : String) (stages : List StageDefinition) : List String :=
  ((declared stages).filter (Excluded refName ·)).map (·.name)

/-- A job without its needs of some names. -/
def withoutNeeds (names : List String) (job : JobDefinition) : JobDefinition :=
  { job with needs := job.needs.filter (·.job ∉ names) }

/-- A stage without the jobs that their rules exclude for a ref, and without needs of some
names. -/
def prunedStage (refName : String) (names : List String) (stage : StageDefinition) :
    StageDefinition :=
  { stage with
    jobs := (stage.jobs.filter (¬Excluded refName ·)).map (withoutNeeds names) }

/-- A definition without the jobs that their rules exclude for a ref, and without the needs
that name them. -/
def pruned (refName : String) (stages : List StageDefinition) : List StageDefinition :=
  stages.map (prunedStage refName (excludedNames refName stages))

section Pruned

variable {refName : String} {stages : List StageDefinition} {maxNeeds : UInt64}

theorem mem_excludedNames {name : String} :
    name ∈ excludedNames refName stages ↔
      ∃ k ∈ declared stages, Excluded refName k ∧ k.name = name := by
  unfold excludedNames
  simp only [List.mem_map, List.mem_filter, decide_eq_true_eq, and_assoc]

/-- What is left are the jobs that are not excluded. -/
theorem declared_pruned (refName : String) (stages : List StageDefinition) :
    declared (pruned refName stages) =
      ((declared stages).filter (¬Excluded refName ·)).map
        (withoutNeeds (excludedNames refName stages)) := by
  unfold declared pruned prunedStage
  rw [List.flatMap_map, List.filter_flatMap, List.map_flatMap]

theorem mem_declared_pruned {job : JobDefinition} :
    job ∈ declared (pruned refName stages) ↔ ∃ k ∈ declared stages, ¬Excluded refName k ∧
      withoutNeeds (excludedNames refName stages) k = job := by
  rw [declared_pruned, List.mem_map]
  simp only [List.mem_filter, decide_eq_true_eq, and_assoc]

/-- Every stage keeps its place. -/
theorem zipIdx_pruned (refName : String) (stages : List StageDefinition) :
    (pruned refName stages).zipIdx =
      stages.zipIdx.map fun item =>
        (prunedStage refName (excludedNames refName stages) item.1, item.2) := by
  unfold pruned
  rw [List.zipIdx_map]
  rfl

/-! ## §2. What names stand for. -/

/-- Nothing goes wrong with declarations when some of them are deleted. -/
theorem wellDeclared_pruned (h : Survey.WellDeclared refName stages.zipIdx) :
    Survey.WellDeclared refName (pruned refName stages).zipIdx := by
  obtain ⟨hstages, hpositions, hjobs, hrules⟩ := (wellDeclared_iff refName stages).mp h
  refine (wellDeclared_iff refName (pruned refName stages)).mpr ⟨?_, ?_, ?_, ?_⟩
  · unfold pruned
    rw [List.map_map]
    exact hstages
  · unfold positions
    rw [zipIdx_pruned, List.map_map]
    exact hpositions
  · -- the names that are left stand in the order in which they stood
    rw [declared_pruned, List.map_map]
    exact hjobs.sublist (List.filter_sublist.map _)
  · intro j hj pattern
    obtain ⟨k, hk, -, rfl⟩ := mem_declared_pruned.mp hj
    exact hrules k hk pattern

variable (h : Survey.WellDeclared refName stages.zipIdx)

include h

theorem mem_excludedNames_iff_standing (name : String) :
    name ∈ excludedNames refName stages ↔
      (Survey.of refName stages).standing name = .excluded := by
  rw [mem_excludedNames, clean_excluded_iff h]

/-- A job takes part after pruning exactly if it took part before. -/
theorem standing_pruned_present_iff (name : String) :
    (Survey.of refName (pruned refName stages)).standing name = .present ↔
      (Survey.of refName stages).standing name = .present := by
  rw [clean_present_iff (wellDeclared_pruned h), clean_present_iff h]
  constructor
  · intro hpresent
    obtain ⟨j, hj, hincluded, rfl⟩ := hpresent
    obtain ⟨k, hk, -, rfl⟩ := mem_declared_pruned.mp hj
    exact ⟨k, hk, hincluded, rfl⟩
  · intro hpresent
    obtain ⟨k, hk, hincluded, rfl⟩ := hpresent
    have hkept : ¬Excluded refName k := (not_excluded_iff (clean_readable h k hk)).mpr hincluded
    exact ⟨_, mem_declared_pruned.mpr ⟨k, hk, hkept, rfl⟩, hincluded, rfl⟩

/-! ## §3. Needs. -/

/-- A job with whose needs nothing is wrong has the same needs after pruning: one of an
excluded job was optional, and counted for nothing. -/
theorem resolved_pruned {job : JobDefinition}
    (hclean : (ResolvedNeeds.of (Survey.of refName stages).standing maxNeeds job).problems = []) :
    ResolvedNeeds.of (Survey.of refName (pruned refName stages)).standing maxNeeds
        (withoutNeeds (excludedNames refName stages) job) =
      ResolvedNeeds.of (Survey.of refName stages).standing maxNeeds job := by
  obtain ⟨hlimit, hneeds⟩ := (ResolvedNeeds.of_problems_eq_nil_iff _ maxNeeds job).mp hclean
  have hfewer : (job.needs.filter (·.job ∉ excludedNames refName stages)).length ≤
      job.needs.length := List.length_filter_le _ _
  unfold ResolvedNeeds.of withoutNeeds
  dsimp only
  rw [if_neg (by omega), if_neg (by omega), List.foldl_filter]
  refine List.foldl_ext _ _ _ fun r n hn => ?_
  obtain ⟨hdeclared, hoptional⟩ := hneeds n hn
  by_cases hexcluded : (Survey.of refName stages).standing n.job = .excluded
  · -- the need has been deleted, and had been dropped before
    have hgone := (mem_excludedNames_iff_standing h n.job).mpr hexcluded
    rw [if_neg (by simpa using hgone)]
    unfold ResolvedNeeds.add
    rw [hexcluded]
    dsimp only
    rw [if_pos (hoptional hexcluded)]
  · have hkept : n.job ∉ excludedNames refName stages :=
      fun hgone => hexcluded ((mem_excludedNames_iff_standing h n.job).mp hgone)
    have hpresent : (Survey.of refName stages).standing n.job = .present := by
      cases hstanding : (Survey.of refName stages).standing n.job with
      | undeclared => exact absurd hstanding hdeclared
      | excluded => exact absurd hstanding hexcluded
      | present => rfl
    rw [if_pos (by simpa using hkept)]
    unfold ResolvedNeeds.add
    rw [hpresent, (standing_pruned_present_iff h n.job).mpr hpresent]

/-! ## §4. Graphs. -/

/-- Nothing is wrong with the needs of the jobs that are not excluded. -/
def NeedsClean (refName : String) (stages : List StageDefinition) (maxNeeds : UInt64) : Prop :=
  ∀ j ∈ declared stages, ¬Excluded refName j →
    (ResolvedNeeds.of (Survey.of refName stages).standing maxNeeds j).problems = []

variable (hneeds : NeedsClean refName stages maxNeeds)

include hneeds

/-- A stage is drafted after pruning as it was before. -/
theorem draftJobs_pruned {item : StageDefinition × Nat} (hitem : item.1 ∈ stages) :
    draftJobs (Survey.of refName (pruned refName stages)) maxNeeds
        (.of refName (prunedStage refName (excludedNames refName stages) item.1, item.2)) =
      draftJobs (Survey.of refName stages) maxNeeds (.of refName item) := by
  unfold draftJobs PlacedStage.of prunedStage
  dsimp only
  rw [List.map_map, List.filterMap_map, List.filterMap_filter, List.filterMap_map]
  refine List.filterMap_congr fun j hj => ?_
  by_cases hexcluded : Excluded refName j
  · -- an excluded job is drafted for nothing
    have hwhen : (PlacedJob.of refName j).when? = none := by
      unfold PlacedJob.when?
      rw [show (PlacedJob.of refName j).verdict = .excluded from hexcluded]
    rw [if_neg (by simpa using hexcluded), Function.comp_apply, hwhen]
    rfl
  · have hdeclared : j ∈ declared stages := List.mem_flatMap.mpr ⟨item.1, hitem, hj⟩
    have hresolved := resolved_pruned h (hneeds j hdeclared hexcluded)
    rw [if_pos (by simpa using hexcluded)]
    dsimp only [Function.comp_apply, PlacedJob.job_of]
    rw [hresolved]
    rfl

/-- The stages of the graph are as they were. -/
theorem stages_pruned :
    (Graph.of refName (pruned refName stages) maxNeeds).stages =
      (Graph.of refName stages maxNeeds).stages := by
  have hplaced : (Survey.of refName stages).placed = stages.zipIdx.map (.of refName) := by
    rw [Survey.of_eq_whole h]
    rfl
  have hplaced' : (Survey.of refName (pruned refName stages)).placed =
      stages.zipIdx.map fun item =>
        .of refName (prunedStage refName (excludedNames refName stages) item.1, item.2) := by
    rw [Survey.of_eq_whole (wellDeclared_pruned h)]
    show (pruned refName stages).zipIdx.map (PlacedStage.of refName) = _
    rw [zipIdx_pruned, List.map_map]
    rfl
  rw [of_stages, of_stages, hplaced, hplaced', List.map_map, List.map_map]
  -- stage by stage, since each keeps its place
  congr 2
  refine List.map_congr_left fun item hitem => ?_
  have hstage : item.1 ∈ stages := List.fst_mem_of_mem_zipIdx hitem
  rw [Function.comp_apply, Function.comp_apply]
  unfold draftStage
  rw [draftJobs_pruned h hneeds hstage]
  rfl

/-- Nothing is wrong with the needs of the jobs that are left. -/
theorem needs_pruned :
    ∀ p ∈ (Survey.of refName (pruned refName stages)).jobs, p.verdict ≠ .excluded →
      (ResolvedNeeds.of (Survey.of refName (pruned refName stages)).standing maxNeeds
        p.job).problems = [] := by
  intro p hp _
  rw [clean_jobs (wellDeclared_pruned h)] at hp
  obtain ⟨j, hj, rfl⟩ := List.mem_map.mp hp
  obtain ⟨k, hk, hkept, rfl⟩ := mem_declared_pruned.mp hj
  rw [PlacedJob.job_of, resolved_pruned h (hneeds k hk hkept)]
  exact hneeds k hk hkept

end Pruned

/-- **A valid graph is built just as well from the definition without the jobs that their
rules exclude and without the needs that name them.** -/
theorem of_pruned {refName : String} {stages : List StageDefinition} {maxNeeds : UInt64}
    (h : (Graph.of refName stages maxNeeds).isValid = true) :
    Graph.of refName (pruned refName stages) maxNeeds = Graph.of refName stages maxNeeds := by
  obtain ⟨hproblems, hplaced, hacyclic⟩ := (of_isValid_iff _ _ _).mp h
  have hdeclared := (Survey.problems_of_eq_nil_iff refName stages).mp hproblems
  have hneeds : NeedsClean refName stages maxNeeds := by
    intro j hj hkept
    refine hplaced (.of refName j) ?_ hkept
    rw [clean_jobs hdeclared]
    exact List.mem_map_of_mem hj
  have hstages := stages_pruned hdeclared hneeds
  have h' : (Graph.of refName (pruned refName stages) maxNeeds).isValid = true := by
    refine (of_isValid_iff _ _ _).mpr ⟨?_, needs_pruned hdeclared hneeds, ?_⟩
    · exact (Survey.problems_of_eq_nil_iff _ _).mpr (wellDeclared_pruned hdeclared)
    · -- what needs what is read off the stages, and these are the same
      unfold Needs jobs at hacyclic ⊢
      rw [hstages]
      exact hacyclic
  calc Graph.of refName (pruned refName stages) maxNeeds
      = ⟨(Graph.of refName (pruned refName stages) maxNeeds).stages, []⟩ := eq_of_isValid h'
    _ = ⟨(Graph.of refName stages maxNeeds).stages, []⟩ := by rw [hstages]
    _ = Graph.of refName stages maxNeeds := (eq_of_isValid h).symm

end

/-- On `main` the rules exclude a job with too many needs, one of which is of no job and one of
a job that needs it in turn, and all jobs of a stage. -/
def prunableSample : List StageDefinition :=
  [.named "build"
     [.named "compile",
      { JobDefinition.named "nightly" with
        needs := [.of "compile", .of "rspec", .of "missing"]
        rules := [.onRef "^nightly-" .onSuccess] }],
   .named "test"
     [{ JobDefinition.named "rspec" with
        needs := [(Need.of "nightly").orSkipped, (Need.of "compile").withoutArtifacts] }],
   .named "deploy"
     [((JobDefinition.named "ship").needing (.of "rspec")).ruledBy (.onRef "^release-" .onSuccess)]]

/-- What the excluded jobs of the sample need, and a need of one of them, leave no trace: the
graph of both definitions has two stages, with one job each. -/
theorem of_pruned_sample :
    (Graph.of "main" prunableSample 2).isValid = true ∧
      (declared (pruned "main" prunableSample)).map (fun j => (j.name, j.needs.map (·.job))) =
        [("compile", []), ("rspec", ["compile"])] ∧
      (pruned "main" prunableSample).length = 3 ∧
      (Graph.of "main" prunableSample 2).stages.map
          (fun s => (s.name, s.jobs.map fun j => (j.name, j.needs.map (·.job)))) =
        [("build", [("compile", [])]), ("test", [("rspec", ["compile"])])] ∧
      Graph.of "main" (pruned "main" prunableSample) 2 = Graph.of "main" prunableSample 2 := by
  have hvalid : (Graph.of "main" prunableSample 2).isValid = true := by decide +kernel
  exact ⟨hvalid, by decide +kernel, rfl, by decide +kernel, of_pruned hvalid⟩

end CiPipeline.Graph
