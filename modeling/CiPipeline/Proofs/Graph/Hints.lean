/-
  CiPipeline.Proofs.Graph.Hints
  ─────────────────────────────
  **What comes of marking a need optional.**

  Two kinds of problems come with the hint to mark the need optional: that its job is not
  declared, and that its job is excluded.  The survey of a definition does not look at needs,
  so it is the same survey when jobs get other needs (`Survey.of_withNeeds`).  Nor does it
  matter to the needs that stand whether others are optional: a graph in which the needs of
  one job that name another one have been made optional has the stages that it had, and its
  problems but for the one that the other job is excluded (`of_madeOptional`).  So the hint
  helps with that problem, and with the other one it never does (`gone_when_optional_iff`).
-/
import CiPipeline.Proofs.Graph.Clashes
import CiPipeline.Proofs.Graph.Structure
import CiPipeline.Regex.Standard

namespace CiPipeline

/-! ## §1. Jobs with other needs. -/

/-- The job with other needs. -/
def JobDefinition.withNeeds (f : JobDefinition → List Need) (job : JobDefinition) :
    JobDefinition :=
  { job with needs := f job }

/-- The stage, its jobs with other needs. -/
def StageDefinition.withNeeds (f : JobDefinition → List Need) (stage : StageDefinition) :
    StageDefinition :=
  { stage with jobs := stage.jobs.map (.withNeeds f) }

namespace Graph

variable (f : JobDefinition → List Need)

/-- The job as it is placed, with other needs. -/
def PlacedJob.withNeeds (p : PlacedJob) : PlacedJob := { p with job := p.job.withNeeds f }

/-- The jobs of a stage so far, with other needs. -/
def JobSurvey.withNeeds (s : JobSurvey) : JobSurvey :=
  { s with placed := s.placed.map (·.withNeeds f) }

/-- The stage as it is placed, its jobs with other needs. -/
def PlacedStage.withNeeds (p : PlacedStage) : PlacedStage :=
  { p with jobs := p.jobs.map (·.withNeeds f) }

/-- The stages so far, their jobs with other needs. -/
def Survey.withNeeds (s : Survey) : Survey :=
  { s with placed := s.placed.map (·.withNeeds f) }

/-- The next job of a stage is looked at for anything but its needs. -/
theorem JobSurvey.add_withNeeds [Regex.Engine] (elsewhere : String → Option String)
    (stage refName : String) (s : JobSurvey) (job : JobDefinition) :
    add elsewhere stage refName (s.withNeeds f) (job.withNeeds f) =
      (add elsewhere stage refName s job).withNeeds f := by
  by_cases hname : job.name ∈ s.names
  · have hname' : (job.withNeeds f).name ∈ (s.withNeeds f).names := hname
    rw [add_of_repeated hname, add_of_repeated hname']
    rfl
  · have hname' : (job.withNeeds f).name ∉ (s.withNeeds f).names := hname
    cases hfirst : elsewhere job.name with
    | some first =>
        have hfirst' : elsewhere (job.withNeeds f).name = some first := hfirst
        rw [add_of_elsewhere hname hfirst, add_of_elsewhere hname' hfirst']
        rfl
    | none =>
        have hfirst' : elsewhere (job.withNeeds f).name = none := hfirst
        rw [add_of_new hname hfirst, add_of_new hname' hfirst']
        unfold JobSurvey.withNeeds
        rw [List.map_append]
        rfl

theorem JobSurvey.foldl_add_withNeeds [Regex.Engine] (elsewhere : String → Option String)
    (stage refName : String) (jobs : List JobDefinition) (s : JobSurvey) :
    (jobs.map (.withNeeds f)).foldl (add elsewhere stage refName) (s.withNeeds f) =
      (jobs.foldl (add elsewhere stage refName) s).withNeeds f := by
  rw [List.foldl_map]
  exact List.foldl_hom (JobSurvey.withNeeds f) (add_withNeeds f elsewhere stage refName)

namespace Survey

theorem placed_withNeeds (s : Survey) :
    (s.withNeeds f).placed = s.placed.map (·.withNeeds f) := rfl

theorem stageOf?_withNeeds (s : Survey) : (s.withNeeds f).stageOf? = s.stageOf? := by
  funext name
  unfold stageOf?
  rw [placed_withNeeds, List.find?_map, Option.map_map]
  unfold PlacedStage.withNeeds
  simp only [Function.comp_def, List.any_map]
  rfl

/-- The next stage is looked at for anything but the needs of its jobs. -/
theorem add_withNeeds [Regex.Engine] (refName : String) (s : Survey)
    (item : StageDefinition × Nat) :
    add refName (s.withNeeds f) (item.1.withNeeds f, item.2) = (add refName s item).withNeeds f := by
  have hjobs : jobsOf refName (s.withNeeds f) (item.1.withNeeds f) =
      (jobsOf refName s item.1).withNeeds f := by
    unfold jobsOf
    rw [stageOf?_withNeeds]
    exact JobSurvey.foldl_add_withNeeds f _ _ _ item.1.jobs ⟨[], [], []⟩
  have htaken : (s.withNeeds f).placed.find?
        (·.position = position (item.1.withNeeds f) item.2) =
      (s.placed.find? (·.position = position item.1 item.2)).map (·.withNeeds f) := by
    rw [placed_withNeeds, List.find?_map]
    rfl
  obtain ⟨stage, place⟩ := item
  dsimp only at hjobs htaken ⊢
  by_cases hname : stage.name ∈ s.names
  · have hname' : (stage.withNeeds f).name ∈ (s.withNeeds f).names := hname
    rw [add_of_repeated hname, add_of_repeated hname']
    rfl
  · have hname' : (stage.withNeeds f).name ∉ (s.withNeeds f).names := hname
    cases hother : s.placed.find? (·.position = position stage place) with
    | some other =>
        rw [hother] at htaken
        rw [add_of_taken hname' htaken, add_of_taken hname hother]
        rfl
    | none =>
        rw [hother] at htaken
        rw [add_of_free hname' htaken, add_of_free hname hother, hjobs]
        unfold Survey.withNeeds
        rw [List.map_append]
        rfl

/-- **A survey of jobs with other needs is the survey of the jobs, with other needs.** -/
theorem of_withNeeds [Regex.Engine] (refName : String) (stages : List StageDefinition) :
    Survey.of refName (stages.map (.withNeeds f)) = (Survey.of refName stages).withNeeds f := by
  unfold Survey.of
  rw [List.zipIdx_map, List.foldl_map]
  -- where nothing has been looked at there are no needs
  show stages.zipIdx.foldl _ (empty.withNeeds f) = _
  exact List.foldl_hom (Survey.withNeeds f) (add_withNeeds f refName)

/-- What is known of names has nothing to do with needs. -/
theorem standing_withNeeds (s : Survey) : (s.withNeeds f).standing = s.standing := by
  funext name
  have hjobs : (s.withNeeds f).jobs = s.jobs.map (·.withNeeds f) := by
    unfold jobs
    rw [placed_withNeeds, List.flatMap_map, List.map_flatMap]
    rfl
  have hfind : (s.withNeeds f).jobs.find? (·.job.name = name) =
      (s.jobs.find? (·.job.name = name)).map (·.withNeeds f) := by
    rw [hjobs, List.find?_map]
    rfl
  unfold standing
  rw [hfind]
  cases s.jobs.find? (·.job.name = name) <;> rfl

end Survey

/-! ## §2. Needs that are made optional. -/

/-- The need of a job, made optional if one job needs another one by it. -/
def relaxed (job need owner : String) (n : Need) : Need :=
  if owner = job ∧ n.job = need then n.orSkipped else n

/-- The needs of a job, made optional as far as one job needs another one by them. -/
def relaxedNeeds (job need : String) (j : JobDefinition) : List Need :=
  j.needs.map (relaxed job need j.name)

/-- A definition in which one job needs another one no longer but optionally. -/
def madeOptional (job need : String) (stages : List StageDefinition) : List StageDefinition :=
  stages.map (.withNeeds (relaxedNeeds job need))

namespace ResolvedNeeds

/-- Resolved needs of which a problem is not reported. -/
def without (q : Problem) (r : ResolvedNeeds) : ResolvedNeeds :=
  { r with problems := r.problems.filter (· ≠ q) }

variable (standing : String → Standing) (job need : String)

/-- A need that is made optional is not reported for naming an excluded job, and is
otherwise as it was. -/
theorem add_relaxed (owner : String) (r : ResolvedNeeds) (n : Need) :
    add standing owner (r.without (.excludedNeed job need)) (relaxed job need owner n) =
      (add standing owner r n).without (.excludedNeed job need) := by
  have hname : (relaxed job need owner n).job = n.job := by
    unfold relaxed
    split <;> rfl
  have hartifacts : (relaxed job need owner n).artifacts = n.artifacts := by
    unfold relaxed
    split <;> rfl
  unfold add
  rw [hname, hartifacts]
  cases standing n.job with
  | undeclared => simp [without]
  | present =>
      cases hany : r.needs.any (·.job = n.job) <;> simp [without, hany]
  | excluded =>
      unfold relaxed
      dsimp only
      by_cases hthis : owner = job ∧ n.job = need
      · -- reported before, if at all, as the problem that is filtered out
        obtain ⟨rfl, rfl⟩ := hthis
        cases n.optional <;> simp [without, Need.orSkipped]
      · have hother : Problem.excludedNeed owner n.job ≠ .excludedNeed job need := by
          intro h
          cases h
          exact hthis ⟨rfl, rfl⟩
        rw [if_neg hthis]
        cases n.optional
        · simp [without, List.filter_append, hother]
        · rfl

theorem of_relaxedNeeds (maxNeeds : UInt64) (j : JobDefinition) :
    of standing maxNeeds (j.withNeeds (relaxedNeeds job need)) =
      (of standing maxNeeds j).without (.excludedNeed job need) := by
  have hlength : (j.withNeeds (relaxedNeeds job need)).needs.length = j.needs.length :=
    List.length_map _
  unfold of
  rw [hlength]
  split
  · rfl
  · -- the needs are resolved one after the other, each of them as it was
    show (j.needs.map (relaxed job need j.name)).foldl _
      (without (.excludedNeed job need) ⟨[], []⟩) = _
    rw [List.foldl_map]
    exact List.foldl_hom (without (.excludedNeed job need))
      (add_relaxed standing job need j.name)

end ResolvedNeeds

/-! ## §3. Graphs. -/

section Graphs

variable (job need : String)

/-- The jobs of a stage are drafted as they were, but for a problem. -/
theorem draftJobs_relaxed (survey : Survey) (maxNeeds : UInt64) (stage : PlacedStage) :
    draftJobs (survey.withNeeds (relaxedNeeds job need)) maxNeeds
        (stage.withNeeds (relaxedNeeds job need)) =
      (draftJobs survey maxNeeds stage).map fun draft =>
        (draft.1, draft.2.filter (· ≠ .excludedNeed job need)) := by
  unfold draftJobs
  rw [Survey.standing_withNeeds]
  unfold PlacedStage.withNeeds
  rw [List.filterMap_map, List.map_filterMap]
  refine List.filterMap_congr fun p _ => ?_
  have hwhen : (p.withNeeds (relaxedNeeds job need)).when? = p.when? := rfl
  have hresolved := ResolvedNeeds.of_relaxedNeeds survey.standing job need maxNeeds p.job
  rw [Function.comp_apply, hwhen]
  cases p.when? with
  | none => rfl
  | some w =>
      unfold PlacedJob.withNeeds
      simp only [Option.map_some, hresolved]
      rfl

theorem draftStage_relaxed (survey : Survey) (maxNeeds : UInt64) (stage : PlacedStage) :
    draftStage (survey.withNeeds (relaxedNeeds job need)) maxNeeds
        (stage.withNeeds (relaxedNeeds job need)) =
      draftStage survey maxNeeds stage := by
  unfold draftStage
  rw [draftJobs_relaxed, List.map_map]
  rfl

variable [Regex.Engine] (refName : String) (stages : List StageDefinition) (maxNeeds : UInt64)

theorem stages_madeOptional :
    (Graph.of refName (madeOptional job need stages) maxNeeds).stages =
      (Graph.of refName stages maxNeeds).stages := by
  have hdrafts : ((Survey.of refName stages).withNeeds (relaxedNeeds job need)).placed.map
        (draftStage ((Survey.of refName stages).withNeeds (relaxedNeeds job need)) maxNeeds) =
      (Survey.of refName stages).placed.map (draftStage (Survey.of refName stages) maxNeeds) := by
    rw [Survey.placed_withNeeds, List.map_map]
    exact List.map_congr_left fun p _ => draftStage_relaxed job need _ maxNeeds p
  rw [of_stages, of_stages]
  unfold madeOptional
  rw [Survey.of_withNeeds, hdrafts]

/-- **A graph in which needs have been made optional is the graph that it was, without the
problem that their job is excluded.** -/
theorem of_madeOptional :
    Graph.of refName (madeOptional job need stages) maxNeeds =
      ⟨(Graph.of refName stages maxNeeds).stages,
        (Graph.of refName stages maxNeeds).problems.filter (· ≠ .excludedNeed job need)⟩ := by
  -- neither a clash nor a ring is the problem that is filtered out
  have hsurvey : (Survey.of refName stages).problems.filter (· ≠ .excludedNeed job need) =
      (Survey.of refName stages).problems := by
    refine List.filter_eq_self.mpr fun q hq => decide_eq_true ?_
    intro h
    subst h
    cases Survey.clash_of_mem_problems hq
  have hrings : ∀ rings : List (List String),
      (rings.map Problem.cycle).filter (· ≠ .excludedNeed job need) = rings.map .cycle := by
    intro rings
    refine List.filter_eq_self.mpr fun q hq => decide_eq_true ?_
    obtain ⟨ring, -, rfl⟩ := List.mem_map.mp hq
    nofun
  have hneeds : ((Survey.of refName stages).withNeeds (relaxedNeeds job need)).placed.flatMap
        (fun p => (draftJobs ((Survey.of refName stages).withNeeds (relaxedNeeds job need))
          maxNeeds p).flatMap (·.2)) =
      ((Survey.of refName stages).placed.flatMap fun p =>
        (draftJobs (Survey.of refName stages) maxNeeds p).flatMap (·.2)).filter
          (· ≠ .excludedNeed job need) := by
    rw [Survey.placed_withNeeds, List.flatMap_map, List.filter_flatMap]
    simp only [draftJobs_relaxed, List.flatMap_map, List.filter_flatMap]
  have hproblems : (Graph.of refName (madeOptional job need stages) maxNeeds).problems =
      (Graph.of refName stages maxNeeds).problems.filter (· ≠ .excludedNeed job need) := by
    rw [of_problems, of_problems, stages_madeOptional, List.filter_append, List.filter_append,
      hsurvey, hrings]
    unfold madeOptional
    rw [Survey.of_withNeeds, hneeds]
    rfl
  rw [← stages_madeOptional job need refName stages maxNeeds, ← hproblems]

end Graphs

/-! ## §4. The hint. -/

/-- The hint to mark a need optional. -/
def optionalHint : String := "Check for typos in the need, or mark it optional."

/-- The hint comes with the problems of single needs, and with no other. -/
theorem fixHint_eq_optionalHint_iff (q : Problem) :
    q.diagnosis.fixHint = some optionalHint ↔
      ∃ job need, q = .undefinedNeed job need ∨ q = .excludedNeed job need := by
  unfold Problem.diagnosis Problem.hint optionalHint
  cases q with
  | undefinedNeed job need => exact iff_of_true rfl ⟨job, need, .inl rfl⟩
  | excludedNeed job need => exact iff_of_true rfl ⟨job, need, .inr rfl⟩
  | _ =>
      refine iff_of_false (by simp) ?_
      intro h
      obtain ⟨job, need, h | h⟩ := h <;> cases h

/-- **What comes of following the hint.**  A problem of a graph that has the hint is about one
job that needs another one.  When these needs are made optional, the graph loses no problem
but the one that the other job is excluded, and has the stages that it had.  So the problem
goes away exactly if it says that the other job is excluded, and never if it says that there
is none. -/
theorem gone_when_optional_iff [Regex.Engine] {refName : String} {stages : List StageDefinition}
    {maxNeeds : UInt64} {q : Problem} (hq : q ∈ (Graph.of refName stages maxNeeds).problems)
    (hhint : q.diagnosis.fixHint = some optionalHint) :
    ∃ job need, (q = .undefinedNeed job need ∨ q = .excludedNeed job need) ∧
      Graph.of refName (madeOptional job need stages) maxNeeds =
        ⟨(Graph.of refName stages maxNeeds).stages,
          (Graph.of refName stages maxNeeds).problems.filter (· ≠ .excludedNeed job need)⟩ ∧
      (q ∉ (Graph.of refName (madeOptional job need stages) maxNeeds).problems ↔
        q = .excludedNeed job need) := by
  obtain ⟨job, need, hkind⟩ := (fixHint_eq_optionalHint_iff q).mp hhint
  refine ⟨job, need, hkind, of_madeOptional job need refName stages maxNeeds, ?_⟩
  rw [of_madeOptional, List.mem_filter, decide_eq_true_eq]
  -- it is among the problems, so only the filter can take it away
  constructor
  · intro hgone
    by_contra hne
    exact hgone ⟨hq, hne⟩
  · intro hexcluded hstays
    exact hstays.2 hexcluded

/-- On `main` a job needs one that its rules exclude. -/
def excludedNeedSample : List StageDefinition :=
  [.named "build" [(JobDefinition.named "docs").ruledBy (.onRef "^release-" .onSuccess)],
   .named "test" [(JobDefinition.named "rspec").needing (.of "docs")]]

/-- The need of the excluded job is reported, and no longer is when it is optional. -/
theorem gone_when_optional_sample :
    .excludedNeed "rspec" "docs" ∈ (Graph.of "main" excludedNeedSample 50).problems ∧
      (Problem.excludedNeed "rspec" "docs").diagnosis.fixHint = some optionalHint ∧
      .excludedNeed "rspec" "docs" ∉
        (Graph.of "main" (madeOptional "rspec" "docs" excludedNeedSample) 50).problems := by
  have hreported :
      .excludedNeed "rspec" "docs" ∈ (Graph.of "main" excludedNeedSample 50).problems := by
    decide +kernel
  refine ⟨hreported, rfl, ?_⟩
  obtain ⟨job, need, hkind, -, hgone⟩ := gone_when_optional_iff hreported rfl
  rcases hkind with h | h
  · cases h
  · cases h
    exact hgone.mpr rfl

/-- The need of a job that is not declared has the hint, and is reported all the same when it
is optional. -/
theorem undefined_stays_when_optional :
    .undefinedNeed "rspec" "setup" ∈
        (Graph.of "main" Definition.undefinedNeed.stages 50).problems ∧
      (Problem.undefinedNeed "rspec" "setup").diagnosis.fixHint = some optionalHint ∧
      .undefinedNeed "rspec" "setup" ∈
        (Graph.of "main" (madeOptional "rspec" "setup" Definition.undefinedNeed.stages)
          50).problems := by
  exact ⟨by decide +kernel, rfl, by decide +kernel⟩

end Graph

end CiPipeline
