/-
  CiPipeline.Proofs.Graph.Survey
  ──────────────────────────────
  **What a survey holds, and when it finds nothing wrong.**

  Whatever is wrong with a definition, the stages and jobs that a survey places have
  distinct names and positions (`Survey.Sound`): a later declaration that clashes is
  passed over.  And nothing is wrong exactly if no two declarations clash and every
  rule that is looked at can be read (`problems_of_eq_nil_iff`); then every stage is
  placed with all its jobs (`of_eq_whole`).
-/
import CiPipeline.Graph.Survey
import Mathlib.Data.List.Induction
import Mathlib.Data.List.Nodup

namespace CiPipeline.Graph

/-- One more member leaves the images of a list distinct exactly if its own image is
new. -/
theorem nodup_map_concat {β γ : Type} (f : β → γ) (l : List β) (a : β) :
    ((l ++ [a]).map f).Nodup ↔ (∀ b ∈ l, f b ≠ f a) ∧ (l.map f).Nodup := by
  rw [List.map_append, List.map_singleton, ← List.concat_eq_append, List.nodup_concat,
    List.mem_map]
  simp only [not_exists, not_and]

/-! ## §1. The jobs of a stage. -/

variable [Regex.Engine]

/-- A job with what its rules say of a ref. -/
def PlacedJob.of (refName : String) (job : JobDefinition) : PlacedJob :=
  ⟨job, Rule.judge job.rules refName job.when⟩

@[simp] theorem PlacedJob.job_of (refName : String) (job : JobDefinition) :
    (PlacedJob.of refName job).job = job := rfl

omit [Regex.Engine] in
/-- A job has no problem of its own exactly if its rules can be read as far as they
are looked at. -/
theorem PlacedJob.problems_eq_nil_iff (p : PlacedJob) :
    p.problems = [] ↔ ∀ pattern, p.verdict ≠ .invalidPattern pattern := by
  unfold PlacedJob.problems
  cases p.verdict <;> simp

namespace JobSurvey

variable {elsewhere : String → Option String} {stage refName : String}

theorem add_of_repeated {s : JobSurvey} {job : JobDefinition} (h : job.name ∈ s.names) :
    add elsewhere stage refName s job =
      { s with problems := s.problems ++ [.duplicateJob stage job.name] } := by
  unfold add
  rw [if_pos h]

theorem add_of_elsewhere {s : JobSurvey} {job : JobDefinition} {first : String}
    (h : job.name ∉ s.names) (hfirst : elsewhere job.name = some first) :
    add elsewhere stage refName s job =
      { s with
        names := job.name :: s.names
        problems := s.problems ++ [.duplicateAcross job.name first stage] } := by
  unfold add
  rw [if_neg h]
  simp only [hfirst]

theorem add_of_new {s : JobSurvey} {job : JobDefinition} (h : job.name ∉ s.names)
    (hfirst : elsewhere job.name = none) :
    add elsewhere stage refName s job =
      ⟨job.name :: s.names, s.placed ++ [.of refName job],
        s.problems ++ (PlacedJob.of refName job).problems⟩ := by
  unfold add
  rw [if_neg h]
  simp only [hfirst]
  rfl

/-- What holds of the jobs of a stage so far. -/
structure Sound (elsewhere : String → Option String) (refName : String) (s : JobSurvey) :
    Prop where
  mem_names : ∀ p ∈ s.placed, p.job.name ∈ s.names
  nodup : (s.placed.map (·.job.name)).Nodup
  nowhere : ∀ p ∈ s.placed, elsewhere p.job.name = none
  judged : ∀ p ∈ s.placed, p = .of refName p.job

/-- One more job keeps what holds of the jobs of a stage. -/
theorem Sound.add {s : JobSurvey} (h : Sound elsewhere refName s) (job : JobDefinition) :
    Sound elsewhere refName (add elsewhere stage refName s job) := by
  by_cases hname : job.name ∈ s.names
  · -- passed over: nothing is placed, here and in the next case
    rw [add_of_repeated hname]
    exact ⟨h.mem_names, h.nodup, h.nowhere, h.judged⟩
  cases hfirst : elsewhere job.name with
  | some first =>
      rw [add_of_elsewhere hname hfirst]
      exact ⟨fun p hp => List.mem_cons_of_mem _ (h.mem_names p hp), h.nodup, h.nowhere, h.judged⟩
  | none =>
      rw [add_of_new hname hfirst]
      refine ⟨?_, ?_, ?_, ?_⟩
      · intro p hp
        rcases List.mem_append.mp hp with hp | hp
        · exact List.mem_cons_of_mem _ (h.mem_names p hp)
        · rw [List.mem_singleton.mp hp]; exact List.mem_cons_self
      · refine (nodup_map_concat _ s.placed _).mpr ⟨?_, h.nodup⟩
        intro p hp heq
        exact hname ((show p.job.name = job.name from heq) ▸ h.mem_names p hp)
      · intro p hp
        rcases List.mem_append.mp hp with hp | hp
        · exact h.nowhere p hp
        · rw [List.mem_singleton.mp hp]; exact hfirst
      · intro p hp
        rcases List.mem_append.mp hp with hp | hp
        · exact h.judged p hp
        · rw [List.mem_singleton.mp hp]; rfl

/-- What holds of all jobs of a stage. -/
theorem sound_foldl (jobs : List JobDefinition) :
    ∀ {s : JobSurvey}, Sound elsewhere refName s →
      Sound elsewhere refName (jobs.foldl (add elsewhere stage refName) s) := by
  induction jobs with
  | nil => intro s h; exact h
  | cons job jobs ih => intro s h; exact ih (h.add job)

/-- Nothing is wrong with the jobs of a stage exactly if their names are new and
distinct and their rules can be read. -/
theorem foldl_problems_eq_nil_iff (jobs : List JobDefinition) :
    ∀ s : JobSurvey, (jobs.foldl (add elsewhere stage refName) s).problems = [] ↔
      s.problems = [] ∧ (jobs.map (·.name)).Nodup ∧
        (∀ j ∈ jobs, j.name ∉ s.names ∧ elsewhere j.name = none ∧
          ∀ pattern, (PlacedJob.of refName j).verdict ≠ .invalidPattern pattern) := by
  induction jobs with
  | nil => intro s; simp
  | cons job jobs ih =>
      intro s
      rw [List.foldl_cons, ih, List.map_cons, List.nodup_cons, List.forall_mem_cons]
      by_cases hname : job.name ∈ s.names
      · -- both sides fail: there is a problem, and the name is not new
        rw [add_of_repeated hname]
        simp [hname]
      cases hfirst : elsewhere job.name with
      | some first =>
          rw [add_of_elsewhere hname hfirst]
          simp
      | none =>
          rw [add_of_new hname hfirst]
          simp only [List.append_eq_nil_iff, PlacedJob.problems_eq_nil_iff, List.mem_cons, not_or,
            List.mem_map, not_exists, not_and]
          -- the names seen so far now include this one, so later jobs differ from it
          constructor
          · intro h
            obtain ⟨⟨hs, hjudge⟩, hnodup, hrest⟩ := h
            exact ⟨hs, ⟨fun k hk heq => (hrest k hk).1.1 heq, hnodup⟩, ⟨hname, trivial, hjudge⟩,
              fun k hk => ⟨(hrest k hk).1.2, (hrest k hk).2⟩⟩
          · intro h
            obtain ⟨hs, ⟨hnew, hnodup⟩, ⟨-, -, hjudge⟩, hrest⟩ := h
            exact ⟨⟨hs, hjudge⟩, hnodup,
              fun k hk => ⟨⟨hnew k hk, (hrest k hk).1⟩, (hrest k hk).2⟩⟩

/-- If nothing is wrong with the jobs of a stage, all of them are placed. -/
theorem foldl_placed (jobs : List JobDefinition) :
    ∀ s : JobSurvey, (jobs.foldl (add elsewhere stage refName) s).problems = [] →
      (jobs.foldl (add elsewhere stage refName) s).placed =
        s.placed ++ jobs.map (.of refName) := by
  induction jobs with
  | nil => intro s _; simp
  | cons job jobs ih =>
      intro s h
      -- without problems no job is passed over, this one least of all
      obtain ⟨-, -, hall⟩ := (foldl_problems_eq_nil_iff (job :: jobs) s).mp h
      obtain ⟨hname, hfirst, -⟩ := hall job List.mem_cons_self
      rw [List.foldl_cons] at h ⊢
      rw [ih _ h, add_of_new hname hfirst]
      simp

end JobSurvey

/-! ## §2. Stages one after the other. -/

/-- A stage with its position and all its jobs. -/
def PlacedStage.of (refName : String) (item : StageDefinition × Nat) : PlacedStage :=
  ⟨item.1.name, Survey.position item.1 item.2, item.1.jobs.map (.of refName)⟩

namespace Survey

variable {refName : String}

/-- The jobs of the next stage, as they are surveyed. -/
def jobsOf (refName : String) (s : Survey) (stage : StageDefinition) : JobSurvey :=
  stage.jobs.foldl (JobSurvey.add s.stageOf? stage.name refName) ⟨[], [], []⟩

omit [Regex.Engine] in
theorem stageOf?_eq_none_iff (s : Survey) (name : String) :
    s.stageOf? name = none ↔ ∀ p ∈ s.jobs, p.job.name ≠ name := by
  unfold stageOf? jobs
  simp only [Option.map_eq_none_iff, List.find?_eq_none, List.any_eq_true, decide_eq_true_eq,
    not_exists, not_and, List.mem_flatMap]
  constructor
  · intro h p hplaced
    obtain ⟨q, hq, hp⟩ := hplaced
    exact h q hq p hp
  · intro h q hq p hp
    exact h p ⟨q, hq, hp⟩

theorem add_of_repeated {s : Survey} {item : StageDefinition × Nat} (h : item.1.name ∈ s.names) :
    add refName s item = { s with problems := s.problems ++ [.duplicateStage item.1.name] } := by
  obtain ⟨stage, place⟩ := item
  unfold add
  dsimp only at h ⊢
  rw [if_pos h]

theorem add_of_taken {s : Survey} {item : StageDefinition × Nat} {other : PlacedStage}
    (h : item.1.name ∉ s.names)
    (hother : s.placed.find? (·.position = position item.1 item.2) = some other) :
    add refName s item =
      { s with
        names := item.1.name :: s.names
        problems := s.problems ++
          [.stagePosition item.1.name other.name (position item.1 item.2)] } := by
  obtain ⟨stage, place⟩ := item
  unfold add
  dsimp only at h hother ⊢
  rw [if_neg h]
  simp only [hother]

theorem add_of_free {s : Survey} {item : StageDefinition × Nat} (h : item.1.name ∉ s.names)
    (hother : s.placed.find? (·.position = position item.1 item.2) = none) :
    add refName s item =
      ⟨item.1.name :: s.names,
        s.placed ++ [⟨item.1.name, position item.1 item.2, (jobsOf refName s item.1).placed⟩],
        s.problems ++ (jobsOf refName s item.1).problems⟩ := by
  obtain ⟨stage, place⟩ := item
  unfold add
  dsimp only at h hother ⊢
  rw [if_neg h]
  simp only [hother]
  rfl

omit [Regex.Engine] in
theorem jobs_append (s : Survey) (names : List String) (p : PlacedStage)
    (problems : List Problem) :
    (Survey.mk names (s.placed ++ [p]) problems).jobs = s.jobs ++ p.jobs := by
  unfold jobs
  simp

/-! ## §3. What a survey holds, whatever is wrong. -/

/-- What holds of the stages so far. -/
structure Sound (refName : String) (s : Survey) : Prop where
  mem_names : ∀ p ∈ s.placed, p.name ∈ s.names
  stages_nodup : (s.placed.map (·.name)).Nodup
  positions_nodup : (s.placed.map (·.position)).Nodup
  jobs_nodup : (s.jobs.map (·.job.name)).Nodup
  judged : ∀ p ∈ s.jobs, p = .of refName p.job

/-- One more stage keeps what holds of the stages. -/
theorem Sound.add {s : Survey} (h : Sound refName s) (item : StageDefinition × Nat) :
    Sound refName (add refName s item) := by
  by_cases hname : item.1.name ∈ s.names
  · rw [add_of_repeated hname]
    exact ⟨h.mem_names, h.stages_nodup, h.positions_nodup, h.jobs_nodup, h.judged⟩
  cases hother : s.placed.find? (·.position = position item.1 item.2) with
  | some other =>
      rw [add_of_taken hname hother]
      exact ⟨fun p hp => List.mem_cons_of_mem _ (h.mem_names p hp), h.stages_nodup,
        h.positions_nodup, h.jobs_nodup, h.judged⟩
  | none =>
      rw [add_of_free hname hother]
      -- only here the stage and its jobs are placed
      have hjobs : JobSurvey.Sound s.stageOf? refName (jobsOf refName s item.1) :=
        JobSurvey.sound_foldl item.1.jobs ⟨by simp, by simp, by simp, by simp⟩
      refine ⟨?_, ?_, ?_, ?_, ?_⟩
      · intro p hp
        rcases List.mem_append.mp hp with hp | hp
        · exact List.mem_cons_of_mem _ (h.mem_names p hp)
        · rw [List.mem_singleton.mp hp]; exact List.mem_cons_self
      · refine (nodup_map_concat _ s.placed _).mpr ⟨?_, h.stages_nodup⟩
        intro p hp heq
        exact hname ((show p.name = item.1.name from heq) ▸ h.mem_names p hp)
      · refine (nodup_map_concat _ s.placed _).mpr ⟨?_, h.positions_nodup⟩
        intro p hp heq
        exact List.find?_eq_none.mp hother p hp (by simpa using heq)
      · -- a job of an earlier stage is not placed again
        rw [jobs_append, List.map_append, List.nodup_append]
        refine ⟨h.jobs_nodup, hjobs.nodup, ?_⟩
        intro a ha b hb hab
        obtain ⟨p, hp, rfl⟩ := List.mem_map.mp ha
        obtain ⟨q, hq, rfl⟩ := List.mem_map.mp hb
        exact (stageOf?_eq_none_iff s q.job.name).mp (hjobs.nowhere q hq) p hp hab
      · rw [jobs_append]
        intro p hp
        rcases List.mem_append.mp hp with hp | hp
        · exact h.judged p hp
        · exact hjobs.judged p hp

/-- More stages keep what holds of the stages. -/
theorem sound_foldl (items : List (StageDefinition × Nat)) :
    ∀ {s : Survey}, Sound refName s → Sound refName (items.foldl (add refName) s) := by
  induction items with
  | nil => intro s h; exact h
  | cons item items ih => intro s h; exact ih (h.add item)

theorem sound_empty (refName : String) : Sound refName empty :=
  ⟨by simp [empty], by simp [empty], by simp [empty], by simp [empty, jobs],
    by simp [empty, jobs]⟩

/-- **The stages and jobs that a survey places are distinct.** -/
theorem sound_of (refName : String) (stages : List StageDefinition) :
    Sound refName (Survey.of refName stages) :=
  sound_foldl stages.zipIdx (sound_empty refName)

/-! ## §4. When nothing is wrong. -/

/-- Declarations of which no two clash, and whose rules can be read. -/
structure WellDeclared (refName : String) (items : List (StageDefinition × Nat)) : Prop where
  stages : (items.map (·.1.name)).Nodup
  positions : (items.map fun item => position item.1 item.2).Nodup
  jobs : ((items.flatMap (·.1.jobs)).map (·.name)).Nodup
  rules : ∀ j ∈ items.flatMap (·.1.jobs), ∀ pattern,
    Rule.judge j.rules refName j.when ≠ .invalidPattern pattern

/-- The survey of declarations of which all are placed. -/
def whole (refName : String) (items : List (StageDefinition × Nat)) : Survey :=
  ⟨(items.map (·.1.name)).reverse, items.map (.of refName), []⟩

theorem jobs_whole (refName : String) (items : List (StageDefinition × Nat)) :
    (whole refName items).jobs = (items.flatMap (·.1.jobs)).map (.of refName) := by
  unfold whole jobs
  simp only [List.flatMap_map, List.map_flatMap]
  rfl

/-- What the next declaration must be like for nothing to be wrong with it. -/
structure Fresh (refName : String) (s : Survey) (item : StageDefinition × Nat) : Prop where
  stage : item.1.name ∉ s.names
  position : ∀ p ∈ s.placed, p.position ≠ Survey.position item.1 item.2
  jobs : (item.1.jobs.map (·.name)).Nodup
  elsewhere : ∀ j ∈ item.1.jobs, ∀ p ∈ s.jobs, p.job.name ≠ j.name
  rules : ∀ j ∈ item.1.jobs, ∀ pattern,
    Rule.judge j.rules refName j.when ≠ .invalidPattern pattern

theorem add_problems_eq_nil_iff (s : Survey) (item : StageDefinition × Nat) :
    (add refName s item).problems = [] ↔ s.problems = [] ∧ Fresh refName s item := by
  by_cases hname : item.1.name ∈ s.names
  · rw [add_of_repeated hname]
    exact ⟨fun h => by simp at h, fun h => absurd hname h.2.stage⟩
  cases hother : s.placed.find? (·.position = position item.1 item.2) with
  | some other =>
      rw [add_of_taken hname hother]
      -- the stage that has been found is the one that stands in the way
      refine ⟨fun h => by simp at h, fun h => absurd ?_ (h.2.position other ?_)⟩
      · simpa using List.find?_some hother
      · exact List.mem_of_find?_eq_some hother
  | none =>
      have hfree : ∀ p ∈ s.placed, p.position ≠ position item.1 item.2 := by
        intro p hp
        simpa using List.find?_eq_none.mp hother p hp
      rw [add_of_free hname hother, List.append_eq_nil_iff, jobsOf,
        JobSurvey.foldl_problems_eq_nil_iff]
      simp only [stageOf?_eq_none_iff]
      constructor
      · intro h
        obtain ⟨hs, -, hnodup, hall⟩ := h
        exact ⟨hs, hname, hfree, hnodup, fun j hj => (hall j hj).2.1, fun j hj => (hall j hj).2.2⟩
      · intro h
        obtain ⟨hs, hfresh⟩ := h
        exact ⟨hs, trivial, hfresh.jobs,
          fun j hj => ⟨by simp, hfresh.elsewhere j hj, hfresh.rules j hj⟩⟩

/-- A declaration with which nothing is wrong is placed with all its jobs. -/
theorem add_of_fresh {s : Survey} {item : StageDefinition × Nat} (h : Fresh refName s item) :
    add refName s item =
      ⟨item.1.name :: s.names, s.placed ++ [.of refName item], s.problems⟩ := by
  have hother : s.placed.find? (·.position = position item.1 item.2) = none := by
    rw [List.find?_eq_none]
    intro p hp
    simpa using h.position p hp
  -- what is fresh about the jobs is what the survey of the jobs asks for
  have hproblems : (jobsOf refName s item.1).problems = [] := by
    rw [jobsOf, JobSurvey.foldl_problems_eq_nil_iff]
    refine ⟨rfl, h.jobs, fun j hj => ⟨by simp, ?_, h.rules j hj⟩⟩
    exact (stageOf?_eq_none_iff s j.name).mpr (h.elsewhere j hj)
  have hplaced : (jobsOf refName s item.1).placed = item.1.jobs.map (.of refName) :=
    JobSurvey.foldl_placed item.1.jobs ⟨[], [], []⟩ hproblems
  rw [add_of_free h.stage hother, hproblems, hplaced, List.append_nil]
  rfl

/-- One more declaration clashes with none and can be read exactly if it is fresh
after the others. -/
theorem wellDeclared_concat_iff (items : List (StageDefinition × Nat))
    (item : StageDefinition × Nat) :
    WellDeclared refName (items ++ [item]) ↔
      WellDeclared refName items ∧ Fresh refName (whole refName items) item := by
  constructor
  · intro h
    obtain ⟨hstages, hpositions, hjobs, hrules⟩ := h
    rw [nodup_map_concat] at hstages hpositions
    rw [List.flatMap_append, List.flatMap_singleton, List.map_append, List.nodup_append] at hjobs
    rw [List.flatMap_append, List.flatMap_singleton] at hrules
    refine ⟨⟨hstages.2, hpositions.2, hjobs.1, fun j hj => hrules j (by simp [hj])⟩,
      ?_, ?_, hjobs.2.1, ?_, fun j hj => hrules j (by simp [hj])⟩
    · intro hmem
      obtain ⟨q, hq, heq⟩ := List.mem_map.mp (List.mem_reverse.mp hmem)
      exact hstages.1 q hq heq
    · intro p hp heq
      obtain ⟨q, hq, rfl⟩ := List.mem_map.mp hp
      exact hpositions.1 q hq heq
    · -- two jobs of one name, one in an earlier stage and one in this stage
      intro j hj p hp heq
      rw [jobs_whole] at hp
      obtain ⟨k, hk, rfl⟩ := List.mem_map.mp hp
      exact hjobs.2.2 k.name (List.mem_map.mpr ⟨k, hk, rfl⟩) j.name
        (List.mem_map.mpr ⟨j, hj, rfl⟩) heq
  · intro h
    obtain ⟨h, hfresh⟩ := h
    refine ⟨?_, ?_, ?_, ?_⟩
    · refine (nodup_map_concat _ items item).mpr ⟨?_, h.stages⟩
      intro q hq heq
      exact hfresh.stage (List.mem_reverse.mpr (List.mem_map.mpr ⟨q, hq, heq⟩))
    · refine (nodup_map_concat _ items item).mpr ⟨?_, h.positions⟩
      intro q hq heq
      exact hfresh.position (.of refName q) (List.mem_map.mpr ⟨q, hq, rfl⟩) heq
    · rw [List.flatMap_append, List.flatMap_singleton, List.map_append, List.nodup_append]
      refine ⟨h.jobs, hfresh.jobs, ?_⟩
      intro a ha b hb hab
      obtain ⟨k, hk, rfl⟩ := List.mem_map.mp ha
      obtain ⟨j, hj, rfl⟩ := List.mem_map.mp hb
      refine hfresh.elsewhere j hj (.of refName k) ?_ hab
      rw [jobs_whole]
      exact List.mem_map.mpr ⟨k, hk, rfl⟩
    · rw [List.flatMap_append, List.flatMap_singleton]
      intro j hj
      rcases List.mem_append.mp hj with hj | hj
      · exact h.rules j hj
      · exact hfresh.rules j hj

/-- Nothing is wrong exactly if no two declarations clash and all rules that are
looked at can be read, and then everything is placed. -/
theorem foldl_add_spec (refName : String) (items : List (StageDefinition × Nat)) :
    ((items.foldl (add refName) empty).problems = [] ↔ WellDeclared refName items) ∧
      (WellDeclared refName items → items.foldl (add refName) empty = whole refName items) := by
  -- from the front, since what a declaration clashes with stands before it
  induction items using List.reverseRecOn with
  | nil => exact ⟨⟨fun _ => ⟨by simp, by simp, by simp, by simp⟩, fun _ => rfl⟩, fun _ => rfl⟩
  | append_singleton items item ih =>
      obtain ⟨hiff, hwhole⟩ := ih
      rw [List.foldl_append, List.foldl_cons, List.foldl_nil, wellDeclared_concat_iff,
        add_problems_eq_nil_iff, hiff]
      refine ⟨and_congr_right fun h => by rw [hwhole h], ?_⟩
      intro h
      obtain ⟨h, hfresh⟩ := h
      rw [hwhole h, add_of_fresh hfresh]
      simp [whole]

/-- **A survey finds nothing wrong exactly if no two declarations clash and every
rule that is looked at can be read.** -/
theorem problems_of_eq_nil_iff (refName : String) (stages : List StageDefinition) :
    (Survey.of refName stages).problems = [] ↔ WellDeclared refName stages.zipIdx :=
  (foldl_add_spec refName stages.zipIdx).1

theorem of_eq_whole {refName : String} {stages : List StageDefinition}
    (h : WellDeclared refName stages.zipIdx) :
    Survey.of refName stages = whole refName stages.zipIdx :=
  (foldl_add_spec refName stages.zipIdx).2 h

end Survey

end CiPipeline.Graph
