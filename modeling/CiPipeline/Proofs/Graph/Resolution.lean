/-
  CiPipeline.Proofs.Graph.Resolution
  ──────────────────────────────────
  **What becomes of each need of a job.**

  A need is settled by what is known of the name, which is told by two tables
  (`Standing.ofTables`): whether the name is declared, and whether it is excluded.  The needs
  that stand are the first ones of the names that are present, and the others are reported
  behind whatever has been found before (`ResolvedNeeds.after_eq`).  A graph collects its
  problems that way, job after job (`of_problems_after`).  A limit that no job exceeds might
  as well be higher, so a valid graph stays as it is (`of_raised`).  Main statement:
  `resolution_of_needs`.
-/
import CiPipeline.Proofs.Graph.Structure
import CiPipeline.Regex.Standard

namespace CiPipeline.Graph

/-! ## §1. Tables. -/

/-- What is known of a name, told by the stages in which names are declared and by the names
that are excluded. -/
def Standing.ofTables (declared : String → Option String) (excluded : String → Bool)
    (name : String) : Standing :=
  match declared name with
  | none => .undeclared
  | some _ => if excluded name then .excluded else .present

/-- The names of the jobs that their rules exclude. -/
def Survey.excludes (s : Survey) (name : String) : Bool :=
  s.jobs.any fun p => p.job.name = name && p.verdict = .excluded

/-- What a survey knows of a name is told by two tables of it. -/
theorem Survey.standing_eq_ofTables [Regex.Engine] {refName : String} {s : Survey}
    (h : Sound refName s) : s.standing = Standing.ofTables s.stageOf? s.excludes := by
  funext name
  have hexcludes : s.excludes name = true ↔ s.standing name = .excluded := by
    rw [standing_eq_excluded_iff h]
    simp [excludes]
  have hundeclared : s.stageOf? name = none ↔ s.standing name = .undeclared := by
    rw [stageOf?_eq_none_iff, standing_eq_undeclared_iff]
  unfold Standing.ofTables
  cases hdeclared : s.stageOf? name with
  | none => exact hundeclared.mp hdeclared
  | some stage =>
      have hne : s.standing name ≠ .undeclared := by
        intro h
        rw [hundeclared.mpr h] at hdeclared
        cases hdeclared
      cases hstanding : s.standing name with
      | undeclared => exact absurd hstanding hne
      | excluded => simp [hexcludes.mpr hstanding]
      | present =>
          have hnot : s.excludes name = false := by
            rw [← Bool.not_eq_true, hexcludes, hstanding]
            nofun
          simp [hnot]

/-! ## §2. The first need of each name. -/

/-- The needs of which none before them names the same job. -/
def firstOfEach (needs : List Need) : List Need :=
  (needs.zipIdx.filter fun item => (needs.take item.2).all (·.job ≠ item.1.job)).map (·.1)

theorem firstOfEach_concat (needs : List Need) (n : Need) :
    firstOfEach (needs ++ [n]) =
      if n.job ∈ needs.map (·.job) then firstOfEach needs else firstOfEach needs ++ [n] := by
  have hfront : needs.zipIdx.filter (fun item =>
        ((needs ++ [n]).take item.2).all (·.job ≠ item.1.job)) =
      needs.zipIdx.filter fun item => (needs.take item.2).all (·.job ≠ item.1.job) := by
    refine List.filter_congr fun item hitem => ?_
    have hplace : item.2 ≤ needs.length := by
      have := List.snd_lt_of_mem_zipIdx hitem
      omega
    rw [List.take_append_of_le_length hplace]
  unfold firstOfEach
  rw [List.zipIdx_append, List.filter_append, hfront, List.map_append, Nat.zero_add,
    List.zipIdx_singleton, List.filter_singleton, List.take_left]
  dsimp only
  -- the last need is kept exactly if all needs before it name other jobs
  by_cases hmem : n.job ∈ needs.map (·.job)
  · obtain ⟨m, hm, hname⟩ := List.mem_map.mp hmem
    have hnot : needs.all (·.job ≠ n.job) = false :=
      List.all_eq_false.mpr ⟨m, hm, by simpa using hname⟩
    rw [if_pos hmem, hnot, cond_false, List.map_nil, List.append_nil]
  · have hall : needs.all (·.job ≠ n.job) = true := by
      rw [List.all_eq_true]
      intro m hm
      exact decide_eq_true fun hname => hmem (List.mem_map.mpr ⟨m, hm, hname⟩)
    rw [if_neg hmem, hall, cond_true]
    rfl

/-! ## §3. The needs of a job. -/

namespace ResolvedNeeds

/-- The needs of a job, resolved after something has been found wrong: what is wrong with
them comes behind it. -/
def after (found : List Problem) (standing : String → Standing) (maxNeeds : UInt64)
    (job : JobDefinition) : ResolvedNeeds :=
  if maxNeeds.toNat < job.needs.length then
    ⟨[], found ++ [.tooManyNeeds job.name maxNeeds.toNat job.needs.length]⟩
  else job.needs.foldl (add standing job.name) ⟨[], found⟩

/-- A need stands if the job that it names is present. -/
def stands (standing : String → Standing) (n : Need) : Bool := standing n.job = .present

/-- The needs that stand are the first ones of the names that are present. -/
theorem foldl_add_needs (standing : String → Standing) (job : String) (found : List Problem)
    (needs : List Need) :
    (needs.foldl (add standing job) ⟨[], found⟩).needs =
      ((firstOfEach needs).filter (stands standing)).map fun n => ⟨n.job, n.artifacts⟩ := by
  -- from the back, since the needs before decide whether a need is the first of its name
  induction needs using List.reverseRecOn with
  | nil => rfl
  | append_singleton needs n ih =>
      -- a name that is present is needed so far exactly if a need before names it
      have hneeded : n.job ∈ (needs.foldl (add standing job) ⟨[], found⟩).needs.map (·.job) ↔
          standing n.job = .present ∧ n.job ∈ needs.map (·.job) := by
        simpa using mem_foldl_add needs n.job ⟨[], found⟩
      rw [List.foldl_append, List.foldl_cons, List.foldl_nil, add_needs, firstOfEach_concat]
      by_cases hpresent : standing n.job = .present
      · by_cases hmem : n.job ∈ needs.map (·.job)
        · rw [if_neg fun h => h.2 (hneeded.mpr ⟨hpresent, hmem⟩), if_pos hmem, ih]
        · rw [if_pos ⟨hpresent, fun h => hmem (hneeded.mp h).2⟩, if_neg hmem, ih]
          simp [stands, hpresent]
      · rw [if_neg fun h => hpresent h.1, ih]
        split <;> simp [stands, hpresent]

/-- What becomes of the needs of a job, each by what is known of its name. -/
theorem after_eq (found : List Problem) (standing : String → Standing) (maxNeeds : UInt64)
    (job : JobDefinition) :
    after found standing maxNeeds job =
      if maxNeeds.toNat < job.needs.length then
        ⟨[], found ++ [.tooManyNeeds job.name maxNeeds.toNat job.needs.length]⟩
      else
        ⟨((firstOfEach job.needs).filter (stands standing)).map fun n => ⟨n.job, n.artifacts⟩,
          found ++ job.needs.flatMap (problemsOf standing job.name)⟩ := by
  unfold after
  split
  · rfl
  · rw [← foldl_add_needs standing job.name found, ← foldl_add_problems job.needs ⟨[], found⟩]

/-- Nothing of what has been found before makes a difference, and it stays in front. -/
theorem after_eq_of (found : List Problem) (standing : String → Standing) (maxNeeds : UInt64)
    (job : JobDefinition) :
    after found standing maxNeeds job =
      ⟨(of standing maxNeeds job).needs, found ++ (of standing maxNeeds job).problems⟩ := by
  have hof : of standing maxNeeds job = after [] standing maxNeeds job := rfl
  rw [hof, after_eq, after_eq]
  split <;> simp

end ResolvedNeeds

/-! ## §4. Graphs. -/

/-- The drafts of a stage hold what is wrong with the needs of its jobs that take part. -/
theorem draftJobs_problems (survey : Survey) (maxNeeds : UInt64) (stage : PlacedStage) :
    (draftJobs survey maxNeeds stage).flatMap (·.2) =
      (stage.jobs.filter (·.when?.isSome)).flatMap fun p =>
        (ResolvedNeeds.of survey.standing maxNeeds p.job).problems := by
  unfold draftJobs
  induction stage.jobs with
  | nil => rfl
  | cons p jobs ih =>
      cases hwhen : p.when? with
      | none => simpa [hwhen] using ih
      | some w => simpa [hwhen] using ih

/-- A limit that a job does not exceed might as well be higher. -/
theorem ResolvedNeeds.of_raised {standing : String → Standing} {maxNeeds raised : UInt64}
    {job : JobDefinition} (hlimit : job.needs.length ≤ maxNeeds.toNat)
    (hraised : maxNeeds ≤ raised) : of standing raised job = of standing maxNeeds job := by
  have hle : maxNeeds.toNat ≤ raised.toNat := hraised
  unfold of
  rw [if_neg (by omega), if_neg (by omega)]

section Graphs

variable [Regex.Engine] (refName : String) (stages : List StageDefinition) (maxNeeds : UInt64)

/-- **A graph collects what is wrong with the needs job after job**, behind what the survey
has found and before the rings. -/
theorem of_problems_after :
    (Graph.of refName stages maxNeeds).problems =
      ((Survey.of refName stages).jobs.filter (·.when?.isSome)).foldl
          (fun found p =>
            (ResolvedNeeds.after found (Survey.of refName stages).standing maxNeeds
              p.job).problems)
          (Survey.of refName stages).problems ++
        (digraph (Graph.of refName stages maxNeeds).stages).cycles.map .cycle := by
  simp only [ResolvedNeeds.after_eq_of]
  rw [of_problems, List.foldl_append_eq_append, ← List.flatMap_def]
  unfold Survey.jobs
  rw [List.filter_flatMap, List.flatMap_assoc]
  simp only [draftJobs_problems]

variable {refName stages maxNeeds}

/-- **A valid graph stays as it is under a higher limit.** -/
theorem of_raised (h : (Graph.of refName stages maxNeeds).isValid = true) {raised : UInt64}
    (hraised : maxNeeds ≤ raised) :
    Graph.of refName stages raised = Graph.of refName stages maxNeeds := by
  obtain ⟨-, hneeds, -⟩ := (of_isValid_iff refName stages maxNeeds).mp h
  have hdrafts : ∀ stage ∈ (Survey.of refName stages).placed,
      draftJobs (Survey.of refName stages) raised stage =
        draftJobs (Survey.of refName stages) maxNeeds stage := by
    intro stage hstage
    unfold draftJobs
    refine List.filterMap_congr fun p hp => ?_
    cases hwhen : p.when? with
    | none => rfl
    | some w =>
        have hkept : p.verdict ≠ .excluded := (when?_eq_some_iff p).mp ⟨w, hwhen⟩
        have hclean := hneeds p (List.mem_flatMap.mpr ⟨stage, hstage, hp⟩) hkept
        obtain ⟨hlimit, -⟩ := (ResolvedNeeds.of_problems_eq_nil_iff _ _ _).mp hclean
        rw [ResolvedNeeds.of_raised hlimit hraised]
  -- the limit is looked at for nothing but the drafts
  have hmap : (Survey.of refName stages).placed.map
        (fun p => (p, draftJobs (Survey.of refName stages) raised p)) =
      (Survey.of refName stages).placed.map
        fun p => (p, draftJobs (Survey.of refName stages) maxNeeds p) :=
    List.map_congr_left fun stage hstage => by rw [hdrafts stage hstage]
  unfold Graph.of
  dsimp only
  rw [hmap]

end Graphs

/-! ## §5. The resolution. -/

/-- Where a name is declared and not excluded, a need of it stands. -/
theorem ResolvedNeeds.stands_ofTables (declared : String → Option String)
    (excluded : String → Bool) :
    stands (Standing.ofTables declared excluded) =
      fun n => (declared n.job).isSome && !excluded n.job := by
  funext n
  unfold stands Standing.ofTables
  cases declared n.job with
  | none => rfl
  | some stage => cases excluded n.job <;> rfl

theorem ResolvedNeeds.problemsOf_ofTables (declared : String → Option String)
    (excluded : String → Bool) (job : String) :
    problemsOf (Standing.ofTables declared excluded) job = fun n =>
      if declared n.job = none then [.undefinedNeed job n.job]
      else if excluded n.job && !n.optional then [.excludedNeed job n.job]
      else [] := by
  funext n
  unfold problemsOf Standing.ofTables
  cases declared n.job with
  | none => rfl
  | some stage => cases excluded n.job <;> cases n.optional <;> rfl

section

variable [Regex.Engine]

/-- **What becomes of the needs of a job.**  A job with more needs than the limit keeps none
of them, which is reported once.  Of any other one the first needs of those names stand that
are declared and not excluded, each as to artifacts; every need of an undeclared name is
reported, and every one of an excluded name that is not optional.  What has been found
before makes no difference and stays in front, and that is how a graph collects its problems
over its jobs.  So a higher limit makes no other graph of a valid one. -/
theorem resolution_of_needs :
    (∀ (declared : String → Option String) (excluded : String → Bool) (maxNeeds : UInt64)
        (job : JobDefinition) (found : List Problem),
      ResolvedNeeds.after found (Standing.ofTables declared excluded) maxNeeds job =
        if maxNeeds.toNat < job.needs.length then
          ⟨[], found ++ [.tooManyNeeds job.name maxNeeds.toNat job.needs.length]⟩
        else
          ⟨((firstOfEach job.needs).filter fun n =>
              (declared n.job).isSome && !excluded n.job).map fun n => ⟨n.job, n.artifacts⟩,
            found ++ job.needs.flatMap fun n =>
              if declared n.job = none then [.undefinedNeed job.name n.job]
              else if excluded n.job && !n.optional then [.excludedNeed job.name n.job]
              else []⟩) ∧
    (∀ (found : List Problem) (standing : String → Standing) (maxNeeds : UInt64)
        (job : JobDefinition),
      ResolvedNeeds.after found standing maxNeeds job =
        ⟨(ResolvedNeeds.of standing maxNeeds job).needs,
          found ++ (ResolvedNeeds.of standing maxNeeds job).problems⟩) ∧
    (∀ (refName : String) (stages : List StageDefinition) (maxNeeds : UInt64),
      (Survey.of refName stages).standing =
          Standing.ofTables (Survey.of refName stages).stageOf?
            (Survey.of refName stages).excludes ∧
        (Graph.of refName stages maxNeeds).problems =
          ((Survey.of refName stages).jobs.filter (·.when?.isSome)).foldl
              (fun found p =>
                (ResolvedNeeds.after found (Survey.of refName stages).standing maxNeeds
                  p.job).problems)
              (Survey.of refName stages).problems ++
            (digraph (Graph.of refName stages maxNeeds).stages).cycles.map .cycle) ∧
    ∀ (refName : String) (stages : List StageDefinition) (maxNeeds raised : UInt64),
      (Graph.of refName stages maxNeeds).isValid = true → maxNeeds ≤ raised →
        Graph.of refName stages raised = Graph.of refName stages maxNeeds := by
  refine ⟨?_, ResolvedNeeds.after_eq_of, ?_, ?_⟩
  · intro declared excluded maxNeeds job found
    rw [ResolvedNeeds.after_eq, ResolvedNeeds.stands_ofTables,
      ResolvedNeeds.problemsOf_ofTables]
  · intro refName stages maxNeeds
    exact ⟨Survey.standing_eq_ofTables (Survey.sound_of refName stages),
      of_problems_after refName stages maxNeeds⟩
  · intro refName stages maxNeeds raised hvalid hraised
    exact of_raised hvalid hraised

end

/-- One job is needed twice, with its artifacts and without; another need is of nothing, and
an excluded job is needed once for good and once optionally. -/
theorem resolution_of_needs_sample :
    ResolvedNeeds.after [.rulePattern "compile" "("]
        (Standing.ofTables
          (fun name => if name = "compile" ∨ name = "lint" then some "build" else none)
          (· = "lint"))
        50
        ((JobDefinition.named "rspec").needing (Need.of "compile")
          |>.needing (Need.of "lint").orSkipped
          |>.needing (Need.of "compile").withoutArtifacts
          |>.needing (Need.of "lint")
          |>.needing (Need.of "setup").orSkipped) =
      ⟨[⟨"compile", true⟩],
        [.rulePattern "compile" "(", .excludedNeed "rspec" "lint",
          .undefinedNeed "rspec" "setup"]⟩ ∧
    (Graph.of "main" Definition.buildAndTest.stages 1).isValid = true ∧
    Graph.of "main" Definition.buildAndTest.stages 50 =
      Graph.of "main" Definition.buildAndTest.stages 1 := by
  have hvalid : (Graph.of "main" Definition.buildAndTest.stages 1).isValid = true := by
    decide +kernel
  refine ⟨?_, hvalid, ?_⟩
  · rw [resolution_of_needs.1]
    decide +kernel
  · exact resolution_of_needs.2.2.2 _ _ _ _ hvalid (by decide)

end CiPipeline.Graph
