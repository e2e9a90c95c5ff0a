/-
  CiPipeline.Proofs.Graph.Structure
  ─────────────────────────────────
  **The structure of every graph, valid or not.**

  A graph is made of the stages that the survey has placed, each with those of its
  jobs that take part.  So stages, positions and jobs are distinct, and a need that
  is kept names a job of the graph (`WellShaped`).  The digraph that is searched
  for rings therefore has an edge exactly where one job of the graph needs another
  (`edge_digraph_iff`).  No job has more needs than the limit, and in a valid graph
  every job runs at some time (`of_regular`).
-/
import CiPipeline.Definition.Samples
import CiPipeline.Graph.Basic
import CiPipeline.Proofs.Graph.Needs
import CiPipeline.Proofs.Graph.Search
import CiPipeline.Regex.Standard

namespace CiPipeline.Graph

/-! ## §1. Stages in the order of their positions. -/

theorem insertStage_perm (s : Stage) (stages : List Stage) :
    (insertStage s stages).Perm (s :: stages) := by
  induction stages with
  | nil => exact .refl _
  | cons t rest ih =>
      unfold insertStage
      split
      · exact (ih.cons t).trans (.swap s t rest)
      · exact .refl _

theorem sortStages_perm (stages : List Stage) : (sortStages stages).Perm stages := by
  induction stages with
  | nil => exact .refl _
  | cons s rest ih => exact (insertStage_perm s _).trans (ih.cons s)

theorem insertStage_ordered (s : Stage) {stages : List Stage}
    (h : stages.Pairwise (·.position ≤ ·.position)) :
    (insertStage s stages).Pairwise (·.position ≤ ·.position) := by
  induction stages with
  | nil => exact List.pairwise_singleton _ s
  | cons t rest ih =>
      obtain ⟨hhead, hrest⟩ := List.pairwise_cons.mp h
      unfold insertStage
      split
      case isTrue hlt =>
        -- the head stays in front, also of the stage that goes in behind it
        refine List.pairwise_cons.mpr ⟨fun u hu => ?_, ih hrest⟩
        rcases List.mem_cons.mp ((insertStage_perm s rest).mem_iff.mp hu) with rfl | hu
        · exact UInt64.le_of_lt hlt
        · exact hhead u hu
      case isFalse hlt =>
        have hst : s.position ≤ t.position := UInt64.not_lt.mp hlt
        refine List.pairwise_cons.mpr ⟨fun u hu => ?_, h⟩
        rcases List.mem_cons.mp hu with rfl | hu
        · exact hst
        · exact UInt64.le_trans hst (hhead u hu)

theorem sortStages_ordered (stages : List Stage) :
    (sortStages stages).Pairwise (·.position ≤ ·.position) := by
  induction stages with
  | nil => exact List.Pairwise.nil
  | cons s rest ih => exact insertStage_ordered s ih

/-- Stages of distinct positions are put into strictly increasing order. -/
theorem sortStages_increasing {stages : List Stage} (h : (stages.map (·.position)).Nodup) :
    (sortStages stages).Pairwise (·.position < ·.position) := by
  have hdistinct : ((sortStages stages).map (·.position)).Nodup :=
    ((sortStages_perm stages).map _).nodup_iff.mpr h
  refine (sortStages_ordered stages).imp₂ ?_ (List.pairwise_map.mp hdistinct)
  intro s t hle hne
  exact UInt64.lt_of_le_of_ne hle hne

/-! ## §2. What a graph is made of. -/

/-- The job of a graph that a placed job becomes, when it runs at a time. -/
def draftJob (survey : Survey) (maxNeeds : UInt64) (stage : PlacedStage) (p : PlacedJob)
    (w : When) : Job :=
  ⟨p.job.name, stage.name, stage.position, p.job.script, w, p.job.allowFailure,
    (ResolvedNeeds.of survey.standing maxNeeds p.job).needs, p.job.options⟩

/-- The stage of a graph that a placed stage becomes. -/
def draftStage (survey : Survey) (maxNeeds : UInt64) (stage : PlacedStage) : Stage :=
  ⟨stage.name, stage.position, (draftJobs survey maxNeeds stage).map (·.1)⟩

theorem mem_draftStage_jobs {survey : Survey} {maxNeeds : UInt64} {stage : PlacedStage} {j : Job} :
    j ∈ (draftStage survey maxNeeds stage).jobs ↔
      ∃ p ∈ stage.jobs, ∃ w, p.when? = some w ∧ j = draftJob survey maxNeeds stage p w := by
  unfold draftStage draftJobs
  simp only [List.mem_map, List.mem_filterMap, Option.map_eq_some_iff]
  constructor
  · intro h
    obtain ⟨_, ⟨p, hp, w, hw, rfl⟩, rfl⟩ := h
    exact ⟨p, hp, w, hw, rfl⟩
  · intro h
    obtain ⟨p, hp, w, hw, rfl⟩ := h
    exact ⟨_, ⟨p, hp, w, hw, rfl⟩, rfl⟩

/-- The jobs of a stage keep their names and their order. -/
theorem draftStage_names_sublist (survey : Survey) (maxNeeds : UInt64) (stage : PlacedStage) :
    ((draftStage survey maxNeeds stage).jobs.map (·.name)).Sublist
      (stage.jobs.map (·.job.name)) := by
  unfold draftStage draftJobs
  induction stage.jobs with
  | nil => exact .slnil
  | cons p jobs ih =>
      cases hwhen : p.when? with
      | none =>
          rw [List.filterMap_cons_none (by rw [hwhen]; rfl)]
          exact ih.cons _
      | some w =>
          rw [List.filterMap_cons_some (by rw [hwhen]; rfl)]
          exact ih.cons_cons _

theorem flatMap_filter_nonempty (stages : List Stage) :
    (stages.filter fun s => !s.jobs.isEmpty).flatMap (·.jobs) = stages.flatMap (·.jobs) := by
  induction stages with
  | nil => rfl
  | cons s rest ih =>
      rw [List.filter_cons]
      cases hjobs : s.jobs with
      | nil => simp [hjobs, ih]
      | cons j js => simp [hjobs, ih]

/-- A job takes part unless its rules exclude it. -/
theorem when?_eq_some_iff (p : PlacedJob) : (∃ w, p.when? = some w) ↔ p.verdict ≠ .excluded := by
  unfold PlacedJob.when?
  cases p.verdict <;> simp

/-- What is distinct among placed stages stays so among the stages of the graph. -/
theorem drafts_nodup {β : Type} {survey : Survey} {maxNeeds : UInt64} {f : Stage → β}
    (h : (survey.placed.map fun p => f (draftStage survey maxNeeds p)).Nodup) :
    (((survey.placed.map (draftStage survey maxNeeds)).filter
      fun s => !s.jobs.isEmpty).map f).Nodup := by
  refine List.Nodup.sublist (List.Sublist.map f List.filter_sublist) ?_
  rw [List.map_map]
  exact h

theorem names_sublist (survey : Survey) (maxNeeds : UInt64) (placed : List PlacedStage) :
    ((placed.flatMap fun p => (draftStage survey maxNeeds p).jobs).map (·.name)).Sublist
      ((placed.flatMap (·.jobs)).map (·.job.name)) := by
  induction placed with
  | nil => exact .slnil
  | cons p placed ih =>
      rw [List.flatMap_cons, List.flatMap_cons, List.map_append, List.map_append]
      exact (draftStage_names_sublist survey maxNeeds p).append ih

section

variable [Regex.Engine]

/-- The stages of a graph are the drafted ones that have jobs. -/
theorem of_stages (refName : String) (stages : List StageDefinition) (maxNeeds : UInt64) :
    (Graph.of refName stages maxNeeds).stages =
      sortStages (((Survey.of refName stages).placed.map
        (draftStage (Survey.of refName stages) maxNeeds)).filter fun s => !s.jobs.isEmpty) := by
  show sortStages _ = sortStages _
  congr 1
  rw [List.filterMap_map]
  -- a stage is dropped for having no drafts, or for having no jobs among them
  induction (Survey.of refName stages).placed with
  | nil => rfl
  | cons p placed ih =>
      rw [List.map_cons, List.filterMap_cons, List.filter_cons, ih]
      cases hdraft : draftJobs (Survey.of refName stages) maxNeeds p with
      | nil => simp [draftStage, hdraft]
      | cons d rest => simp [draftStage, hdraft]

/-- The jobs of a graph, stage after stage. -/
def jobs (g : Graph) : List Job := g.stages.flatMap (·.jobs)

/-- Up to their order, the jobs of a graph are those of all drafted stages. -/
theorem of_jobs_perm (refName : String) (stages : List StageDefinition) (maxNeeds : UInt64) :
    (Graph.of refName stages maxNeeds).jobs.Perm
      ((Survey.of refName stages).placed.flatMap fun p =>
        (draftStage (Survey.of refName stages) maxNeeds p).jobs) := by
  unfold jobs
  rw [of_stages]
  refine ((sortStages_perm _).flatMap_right _).trans ?_
  rw [flatMap_filter_nonempty, List.flatMap_map]

/-- A job of a graph is one that the survey has placed and that takes part. -/
theorem mem_of_jobs {refName : String} {stages : List StageDefinition} {maxNeeds : UInt64}
    {j : Job} :
    j ∈ (Graph.of refName stages maxNeeds).jobs ↔
      ∃ stage ∈ (Survey.of refName stages).placed, ∃ p ∈ stage.jobs, ∃ w,
        p.when? = some w ∧ j = draftJob (Survey.of refName stages) maxNeeds stage p w := by
  rw [(of_jobs_perm refName stages maxNeeds).mem_iff, List.mem_flatMap]
  simp only [mem_draftStage_jobs]

/-- The names of a graph are those of the jobs that are present. -/
theorem mem_of_names_iff {refName : String} {stages : List StageDefinition} {maxNeeds : UInt64}
    {name : String} :
    name ∈ (Graph.of refName stages maxNeeds).jobs.map (·.name) ↔
      (Survey.of refName stages).standing name = .present := by
  rw [Survey.standing_eq_present_iff (Survey.sound_of refName stages), List.mem_map]
  unfold Survey.jobs
  constructor
  · intro h
    obtain ⟨j, hj, rfl⟩ := h
    obtain ⟨stage, hstage, p, hp, w, hw, rfl⟩ := mem_of_jobs.mp hj
    exact ⟨p, List.mem_flatMap.mpr ⟨stage, hstage, hp⟩, rfl, (when?_eq_some_iff p).mp ⟨w, hw⟩⟩
  · intro h
    obtain ⟨p, hp, rfl, hverdict⟩ := h
    obtain ⟨stage, hstage, hp⟩ := List.mem_flatMap.mp hp
    obtain ⟨w, hw⟩ := (when?_eq_some_iff p).mpr hverdict
    exact ⟨_, mem_of_jobs.mpr ⟨stage, hstage, p, hp, w, hw, rfl⟩, rfl⟩

/-! ## §3. The shape of a graph. -/

/-- Distinct stages and jobs, each in its place, and needs that stay within the
graph. -/
structure WellShaped (g : Graph) : Prop where
  increasing : g.stages.Pairwise (·.position < ·.position)
  stages_nodup : (g.stages.map (·.name)).Nodup
  nonempty : ∀ s ∈ g.stages, s.jobs ≠ []
  placed : ∀ s ∈ g.stages, ∀ j ∈ s.jobs, j.stage = s.name ∧ j.stageIdx = s.position
  jobs_nodup : (g.jobs.map (·.name)).Nodup
  needs_nodup : ∀ j ∈ g.jobs, (j.needs.map (·.job)).Nodup
  needs_closed : ∀ j ∈ g.jobs, ∀ name ∈ j.needs.map (·.job), name ∈ g.jobs.map (·.name)

theorem mem_of_stages {refName : String} {stages : List StageDefinition} {maxNeeds : UInt64}
    {s : Stage} (hs : s ∈ (Graph.of refName stages maxNeeds).stages) :
    s.jobs ≠ [] ∧ ∃ p ∈ (Survey.of refName stages).placed,
      s = draftStage (Survey.of refName stages) maxNeeds p := by
  rw [of_stages, (sortStages_perm _).mem_iff, List.mem_filter, List.mem_map] at hs
  obtain ⟨⟨p, hp, rfl⟩, hjobs⟩ := hs
  exact ⟨by simpa using hjobs, p, hp, rfl⟩

/-- **Every graph is well shaped, whatever is wrong with its definition.** -/
theorem of_wellShaped (refName : String) (stages : List StageDefinition) (maxNeeds : UInt64) :
    (Graph.of refName stages maxNeeds).WellShaped := by
  have hsound := Survey.sound_of refName stages
  -- the stages and jobs of the survey are only dropped and put in order
  refine ⟨?_, ?_, ?_, ?_, ?_, ?_, ?_⟩
  · rw [of_stages]
    exact sortStages_increasing (drafts_nodup hsound.positions_nodup)
  · rw [of_stages, ((sortStages_perm _).map _).nodup_iff]
    exact drafts_nodup hsound.stages_nodup
  · intro s hs
    exact (mem_of_stages hs).1
  · intro s hs j hj
    obtain ⟨-, p, -, rfl⟩ := mem_of_stages hs
    obtain ⟨q, -, w, -, rfl⟩ := mem_draftStage_jobs.mp hj
    exact ⟨rfl, rfl⟩
  · rw [((of_jobs_perm refName stages maxNeeds).map _).nodup_iff]
    exact List.Nodup.sublist (names_sublist _ maxNeeds _) hsound.jobs_nodup
  · intro j hj
    obtain ⟨stage, -, p, -, w, -, rfl⟩ := mem_of_jobs.mp hj
    exact ResolvedNeeds.of_needs_nodup _ maxNeeds p.job
  · intro j hj name hname
    obtain ⟨stage, -, p, -, w, -, rfl⟩ := mem_of_jobs.mp hj
    exact mem_of_names_iff.mpr ((ResolvedNeeds.mem_of_needs_iff _ maxNeeds p.job name).mp hname).2.1

/-! ## §4. The digraph of the needs. -/

/-- A job of the graph needs another one. -/
def Needs (g : Graph) (a b : String) : Prop :=
  ∃ j ∈ g.jobs, j.name = a ∧ b ∈ j.needs.map (·.job)

omit [Regex.Engine] in
/-- A job is found by its name. -/
theorem WellShaped.job?_of_mem {g : Graph} (h : g.WellShaped) {j : Job} (hj : j ∈ g.jobs) :
    g.stages.findSome? (·.job? j.name) = some j := by
  -- a search stage by stage is a search through all jobs
  have hfind : g.jobs.find? (·.name = j.name) = some j := find?_of_nodup h.jobs_nodup hj
  unfold jobs at hfind
  rw [List.find?_flatMap] at hfind
  exact hfind

omit [Regex.Engine] in
/-- The digraph has an edge exactly where one job of the graph needs another. -/
theorem WellShaped.edge_digraph_iff {g : Graph} (h : g.WellShaped) (a b : String) :
    (digraph g.stages).Edge a b ↔ g.Needs a b := by
  have horder : (digraph g.stages).order = g.jobs.map (·.name) := by
    unfold digraph jobs
    rw [List.map_flatMap]
  have hedges : ∀ j ∈ g.jobs, (digraph g.stages).edges j.name = j.needs.map (·.job) := by
    intro j hj
    unfold digraph
    dsimp only
    rw [h.job?_of_mem hj]
  unfold Digraph.Edge Needs
  rw [horder]
  constructor
  · intro h
    obtain ⟨ha, -, hedge⟩ := h
    obtain ⟨j, hj, rfl⟩ := List.mem_map.mp ha
    exact ⟨j, hj, rfl, by rw [← hedges j hj]; exact hedge⟩
  · intro h
    obtain ⟨j, hj, rfl, hb⟩ := h
    exact ⟨List.mem_map_of_mem hj, h.needs_closed j hj b hb, by rw [hedges j hj]; exact hb⟩

/-- Who needs whom is settled by the survey. -/
theorem of_needs_iff (refName : String) (stages : List StageDefinition) (maxNeeds : UInt64)
    (a b : String) :
    (Graph.of refName stages maxNeeds).Needs a b ↔
      ∃ p ∈ (Survey.of refName stages).jobs, p.verdict ≠ .excluded ∧ p.job.name = a ∧
        p.job.needs.length ≤ maxNeeds.toNat ∧ (∃ n ∈ p.job.needs, n.job = b) ∧
          (Survey.of refName stages).standing b = .present := by
  unfold Needs Survey.jobs
  constructor
  · intro h
    obtain ⟨j, hj, rfl, hb⟩ := h
    obtain ⟨stage, hstage, p, hp, w, hw, rfl⟩ := mem_of_jobs.mp hj
    obtain ⟨hlimit, hpresent, hneed⟩ := (ResolvedNeeds.mem_of_needs_iff _ maxNeeds p.job b).mp hb
    exact ⟨p, List.mem_flatMap.mpr ⟨stage, hstage, hp⟩, (when?_eq_some_iff p).mp ⟨w, hw⟩, rfl,
      hlimit, hneed, hpresent⟩
  · intro h
    obtain ⟨p, hp, hverdict, rfl, hlimit, hneed, hpresent⟩ := h
    obtain ⟨stage, hstage, hp⟩ := List.mem_flatMap.mp hp
    obtain ⟨w, hw⟩ := (when?_eq_some_iff p).mpr hverdict
    exact ⟨_, mem_of_jobs.mpr ⟨stage, hstage, p, hp, w, hw, rfl⟩, rfl,
      (ResolvedNeeds.mem_of_needs_iff _ maxNeeds p.job b).mpr ⟨hlimit, hpresent, hneed⟩⟩

/-! ## §5. The problems of a graph. -/

omit [Regex.Engine] in
/-- A valid graph is its stages. -/
theorem eq_of_isValid {g : Graph} (h : g.isValid = true) : g = ⟨g.stages, []⟩ := by
  have hproblems : g.problems = [] := List.isEmpty_iff.mp h
  rw [← hproblems]

theorem of_problems (refName : String) (stages : List StageDefinition) (maxNeeds : UInt64) :
    (Graph.of refName stages maxNeeds).problems =
      (Survey.of refName stages).problems ++
        ((Survey.of refName stages).placed.flatMap fun p =>
          (draftJobs (Survey.of refName stages) maxNeeds p).flatMap (·.2)) ++
        (digraph (Graph.of refName stages maxNeeds).stages).cycles.map .cycle := by
  unfold Graph.of
  dsimp only
  rw [List.flatMap_map]

omit [Regex.Engine] in
theorem draftJobs_problems_eq_nil_iff (survey : Survey) (maxNeeds : UInt64) (stage : PlacedStage) :
    (draftJobs survey maxNeeds stage).flatMap (·.2) = [] ↔
      ∀ p ∈ stage.jobs, p.verdict ≠ .excluded →
        (ResolvedNeeds.of survey.standing maxNeeds p.job).problems = [] := by
  unfold draftJobs
  simp only [List.flatMap_eq_nil_iff, List.mem_filterMap, Option.map_eq_some_iff]
  constructor
  · intro h p hp hverdict
    obtain ⟨w, hw⟩ := (when?_eq_some_iff p).mpr hverdict
    exact h _ ⟨p, hp, w, hw, rfl⟩
  · intro h draft hdraft
    obtain ⟨p, hp, w, hw, rfl⟩ := hdraft
    exact h p hp ((when?_eq_some_iff p).mp ⟨w, hw⟩)

/-- **A graph is valid exactly if the survey finds nothing wrong, nothing is wrong
with the needs of any job that takes part, and no job needs itself in the end.** -/
theorem of_isValid_iff (refName : String) (stages : List StageDefinition) (maxNeeds : UInt64) :
    (Graph.of refName stages maxNeeds).isValid = true ↔
      (Survey.of refName stages).problems = [] ∧
        (∀ p ∈ (Survey.of refName stages).jobs, p.verdict ≠ .excluded →
          (ResolvedNeeds.of (Survey.of refName stages).standing maxNeeds p.job).problems = []) ∧
        AcyclicRel (Graph.of refName stages maxNeeds).Needs := by
  have hshape := of_wellShaped refName stages maxNeeds
  -- the search runs on the digraph, the statement is about the jobs
  have hedge : (digraph (Graph.of refName stages maxNeeds).stages).Edge =
      (Graph.of refName stages maxNeeds).Needs := by
    funext a b
    exact propext (hshape.edge_digraph_iff a b)
  unfold isValid
  rw [List.isEmpty_iff, of_problems, List.append_eq_nil_iff, List.append_eq_nil_iff, and_assoc,
    List.map_eq_nil_iff, Digraph.cycles_eq_nil_iff, hedge, List.flatMap_eq_nil_iff]
  simp only [draftJobs_problems_eq_nil_iff]
  unfold Survey.jobs
  refine and_congr_right fun _ => and_congr_left fun _ => ⟨fun h p hp => ?_, fun h stage hs p hp => ?_⟩
  · obtain ⟨stage, hstage, hp⟩ := List.mem_flatMap.mp hp
    exact h stage hstage p hp
  · exact h p (List.mem_flatMap.mpr ⟨stage, hs, hp⟩)

/-- Rules never include a subject that is to run never. -/
theorem judge_included_ne_never {rules : List Rule} {refName : String} {w w' : When}
    (h : Rule.judge rules refName w = .included w') : w' ≠ .never := by
  have hofWhen : ∀ u, Verdict.ofWhen u = .included w' → w' ≠ .never := by
    intro u hu
    unfold Verdict.ofWhen at hu
    split at hu
    case isTrue => cases hu
    case isFalse hne => cases hu; exact hne
  have hfirst : ∀ rules : List Rule, Rule.firstMatch rules refName w = .included w' →
      w' ≠ .never := by
    intro rules
    induction rules with
    | nil => intro h; cases h
    | cons r rest ih =>
        intro h
        unfold Rule.firstMatch at h
        split at h
        · cases h
        · exact hofWhen _ h
        · exact ih h
  unfold Rule.judge at h
  split at h
  · -- without rules the time of the subject itself decides
    exact hofWhen _ h
  · exact hfirst _ h

/-- No job of a valid graph is to run never. -/
theorem when_ne_never_of_isValid {refName : String} {stages : List StageDefinition}
    {maxNeeds : UInt64} (h : (Graph.of refName stages maxNeeds).isValid = true) :
    ∀ j ∈ (Graph.of refName stages maxNeeds).jobs, j.when ≠ .never := by
  have hdeclared := (Survey.problems_of_eq_nil_iff refName stages).mp
    ((of_isValid_iff refName stages maxNeeds).mp h).1
  intro j hj
  obtain ⟨stage, hstage, p, hp, w, hw, rfl⟩ := mem_of_jobs.mp hj
  have hmem : p ∈ (Survey.of refName stages).jobs := List.mem_flatMap.mpr ⟨stage, hstage, hp⟩
  rw [Survey.of_eq_whole hdeclared, Survey.jobs_whole] at hmem
  obtain ⟨job, hjob, rfl⟩ := List.mem_map.mp hmem
  show w ≠ .never
  -- only under a rule that cannot be read does a job keep the time that it asks for
  unfold PlacedJob.when? at hw
  split at hw
  case h_1 w' hverdict =>
    cases hw
    exact judge_included_ne_never hverdict
  case h_2 => cases hw
  case h_3 pattern hverdict => exact absurd hverdict (hdeclared.rules job hjob pattern)

/-! ## §6. Graphs that have been built. -/

/-- A graph that has been built from some definition. -/
def Built (g : Graph) : Prop := ∃ refName stages maxNeeds, g = Graph.of refName stages maxNeeds

/-- **A graph that has been built and is valid has the shape of every graph, no job in
it runs never, and no job needs itself in the end.** -/
theorem Built.of_isValid {g : Graph} (h : Built g) (hvalid : g.isValid = true) :
    g.WellShaped ∧ (∀ j ∈ g.jobs, j.when ≠ .never) ∧ AcyclicRel g.Needs := by
  obtain ⟨refName, stages, maxNeeds, rfl⟩ := h
  exact ⟨of_wellShaped refName stages maxNeeds, when_ne_never_of_isValid hvalid,
    ((of_isValid_iff refName stages maxNeeds).mp hvalid).2.2⟩

/-! ## §7. Graphs under a limit of needs. -/

/-- What holds of a graph that has been built under a limit of needs: it is well shaped
and keeps to the limit, and if it is valid none of its jobs runs never. -/
structure Regular (maxNeeds : UInt64) (g : Graph) : Prop extends WellShaped g where
  needs_limited : ∀ j ∈ g.jobs, j.needs.length ≤ maxNeeds.toNat
  runs : g.isValid = true → ∀ j ∈ g.jobs, j.when ≠ .never

/-- No job of a graph has more needs than the limit. -/
theorem length_needs_le {refName : String} {stages : List StageDefinition} {maxNeeds : UInt64}
    {j : Job} (hj : j ∈ (Graph.of refName stages maxNeeds).jobs) :
    j.needs.length ≤ maxNeeds.toNat := by
  obtain ⟨stage, -, p, -, w, -, rfl⟩ := mem_of_jobs.mp hj
  exact ResolvedNeeds.length_of_needs_le _ maxNeeds p.job

/-- **Every graph is regular under its limit, valid or not.** -/
theorem of_regular (refName : String) (stages : List StageDefinition) (maxNeeds : UInt64) :
    (Graph.of refName stages maxNeeds).Regular maxNeeds where
  toWellShaped := of_wellShaped refName stages maxNeeds
  needs_limited := fun _ hj => length_needs_le hj
  runs := when_ne_never_of_isValid

end

/-- A definition with a job that stands twice, a need of nothing and a ring has a graph
with jobs all the same, and so has one in which nothing is wrong. -/
theorem of_regular_sample :
    (Graph.of "main" Definition.severalErrors.stages 50).isValid = false ∧
      (Graph.of "main" Definition.severalErrors.stages 50).size = 4 ∧
      (Graph.of "main" Definition.severalErrors.stages 50).Regular 50 ∧
      (Graph.of "main" Definition.buildAndTest.stages 50).isValid = true ∧
      ∀ j ∈ (Graph.of "main" Definition.buildAndTest.stages 50).jobs, j.when ≠ .never := by
  have hvalid : (Graph.of "main" Definition.buildAndTest.stages 50).isValid = true := by
    decide +kernel
  refine ⟨by decide +kernel, by decide +kernel, of_regular _ _ _, hvalid, ?_⟩
  exact (of_regular "main" Definition.buildAndTest.stages 50).runs hvalid

end CiPipeline.Graph
