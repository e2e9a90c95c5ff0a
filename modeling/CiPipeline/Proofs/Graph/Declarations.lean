/-
  CiPipeline.Proofs.Graph.Declarations
  ────────────────────────────────────
  **Which declarations count, told from the definition alone.**

  A stage is kept if its name is new and its position is free, and of the jobs of kept
  stages the first one of each name counts (`firstDeclared`).  These are the jobs that
  a survey places (`Survey.mem_of_jobs_iff`), so what is known of a name (§3) and what
  is reported of the needs of a job (§4) can be told without the survey.
-/
import CiPipeline.Proofs.Graph.Clashes
import CiPipeline.Proofs.Graph.Validity

namespace CiPipeline.Graph

/-! ## §1. Kept stages. -/

/-- The stages that are kept, after stages of some names, of which those that were kept
have taken some positions. -/
def keptAfter : List String → List UInt64 → List (StageDefinition × Nat) → List StageDefinition
  | _, _, [] => []
  | names, taken, item :: rest =>
      if item.1.name ∈ names then keptAfter names taken rest
      else if Survey.position item.1 item.2 ∈ taken then
        -- passed over, and its name counts as seen all the same
        keptAfter (item.1.name :: names) taken rest
      else
        item.1 :: keptAfter (item.1.name :: names)
          (taken ++ [Survey.position item.1 item.2]) rest

/-- The stages that are kept: those whose name no stage before has, and whose position
no kept one before. -/
def keptStages (stages : List StageDefinition) : List StageDefinition :=
  keptAfter [] [] stages.zipIdx

/-- The first job of a name in a kept stage. -/
def firstDeclared (stages : List StageDefinition) (name : String) : Option JobDefinition :=
  (declared (keptStages stages)).find? (·.name = name)

section KeptAfter

variable {names : List String} {taken : List UInt64} {item : StageDefinition × Nat}
variable {rest : List (StageDefinition × Nat)}

theorem keptAfter_of_repeated (h : item.1.name ∈ names) :
    keptAfter names taken (item :: rest) = keptAfter names taken rest := by
  rw [keptAfter, if_pos h]

theorem keptAfter_of_taken (h : item.1.name ∉ names)
    (htaken : Survey.position item.1 item.2 ∈ taken) :
    keptAfter names taken (item :: rest) = keptAfter (item.1.name :: names) taken rest := by
  rw [keptAfter, if_neg h, if_pos htaken]

theorem keptAfter_of_free (h : item.1.name ∉ names)
    (hfree : Survey.position item.1 item.2 ∉ taken) :
    keptAfter names taken (item :: rest) =
      item.1 :: keptAfter (item.1.name :: names)
        (taken ++ [Survey.position item.1 item.2]) rest := by
  rw [keptAfter, if_neg h, if_neg hfree]

end KeptAfter

/-- No stage is kept that is not declared. -/
theorem keptAfter_sublist (items : List (StageDefinition × Nat)) :
    ∀ (names : List String) (taken : List UInt64),
      (keptAfter names taken items).Sublist (items.map (·.1)) := by
  induction items with
  | nil => intro names taken; exact .slnil
  | cons item rest ih =>
      intro names taken
      rw [List.map_cons]
      by_cases hname : item.1.name ∈ names
      · rw [keptAfter_of_repeated hname]
        exact (ih names taken).cons _
      by_cases htaken : Survey.position item.1 item.2 ∈ taken
      · rw [keptAfter_of_taken hname htaken]
        exact (ih _ taken).cons _
      · rw [keptAfter_of_free hname htaken]
        exact (ih _ _).cons_cons _

theorem mem_declared_of_kept {stages : List StageDefinition} {job : JobDefinition}
    (h : job ∈ declared (keptStages stages)) : job ∈ declared stages := by
  have hsub : (keptStages stages).Sublist stages := by
    have hkept := keptAfter_sublist stages.zipIdx [] []
    rw [List.zipIdx_map_fst] at hkept
    exact hkept
  obtain ⟨stage, hstage, hjob⟩ := List.mem_flatMap.mp h
  exact List.mem_flatMap.mpr ⟨stage, hsub.mem hstage, hjob⟩

theorem mem_of_firstDeclared {stages : List StageDefinition} {name : String} {job : JobDefinition}
    (h : firstDeclared stages name = some job) :
    job ∈ declared (keptStages stages) ∧ job.name = name :=
  ⟨List.mem_of_find?_eq_some h, by simpa using List.find?_some h⟩

/-- No job of a name counts exactly if no kept stage declares one. -/
theorem firstDeclared_eq_none_iff (stages : List StageDefinition) (name : String) :
    firstDeclared stages name = none ↔ ∀ k ∈ declared (keptStages stages), k.name ≠ name := by
  unfold firstDeclared
  simp only [List.find?_eq_none, decide_eq_true_eq, ne_eq]

/-- A job that counts is declared. -/
theorem mem_declared_of_first {stages : List StageDefinition} {name : String} {job : JobDefinition}
    (h : firstDeclared stages name = some job) : job ∈ declared stages :=
  mem_declared_of_kept (mem_of_firstDeclared h).1

variable [Regex.Engine]

/-- A job that counts, and that its rules do not exclude for a ref. -/
structure Kept (refName : String) (stages : List StageDefinition) (job : JobDefinition) :
    Prop where
  first : firstDeclared stages job.name = some job
  taking : ¬Excluded refName job

/-! ## §2. What a survey places. -/

namespace JobSurvey

variable {elsewhere : String → Option String} {stage refName name : String}

/-- A name that belongs to no stage before is placed as soon as it has been seen. -/
def SeenPlaced (name : String) (s : JobSurvey) : Prop :=
  name ∈ s.names → ∃ p, s.placed.find? (·.job.name = name) = some p

/-- A job of another name changes nothing for a name. -/
theorem add_of_ne (elsewhere : String → Option String) (stage refName : String) {s : JobSurvey}
    {job : JobDefinition} (hne : job.name ≠ name) (hseen : SeenPlaced name s) :
    SeenPlaced name (add elsewhere stage refName s job) ∧
      (add elsewhere stage refName s job).placed.find? (·.job.name = name) =
        s.placed.find? (·.job.name = name) := by
  have hcons : name ∈ job.name :: s.names → name ∈ s.names := by
    intro hmem
    rcases List.mem_cons.mp hmem with h | h
    · exact absurd h.symm hne
    · exact h
  by_cases hname : job.name ∈ s.names
  · rw [add_of_repeated hname]
    exact ⟨hseen, rfl⟩
  cases hfirst : elsewhere job.name with
  | some first =>
      rw [add_of_elsewhere hname hfirst]
      exact ⟨fun hmem => hseen (hcons hmem), rfl⟩
  | none =>
      have hfind : (s.placed ++ [PlacedJob.of refName job]).find? (·.job.name = name) =
          s.placed.find? (·.job.name = name) := by
        rw [List.find?_append, List.find?_singleton, if_neg (by simp [hne]), Option.or_none]
      rw [add_of_new hname hfirst]
      refine ⟨?_, hfind⟩
      intro hmem
      obtain ⟨p, hp⟩ := hseen (hcons hmem)
      exact ⟨p, hfind.trans hp⟩

/-- A job of a name is placed, unless one has been placed before. -/
theorem add_of_named (stage refName : String) {s : JobSurvey} {job : JobDefinition}
    (hnowhere : elsewhere job.name = none) (hseen : SeenPlaced job.name s) :
    SeenPlaced job.name (add elsewhere stage refName s job) ∧
      (add elsewhere stage refName s job).placed.find? (·.job.name = job.name) =
        (s.placed.find? (·.job.name = job.name)).or (some (.of refName job)) := by
  by_cases hname : job.name ∈ s.names
  · -- passed over, so what has been placed before stands for the name
    obtain ⟨p, hp⟩ := hseen hname
    rw [add_of_repeated hname]
    refine ⟨hseen, ?_⟩
    show s.placed.find? _ = _
    rw [hp]
    rfl
  · have hfind : (s.placed ++ [PlacedJob.of refName job]).find? (·.job.name = job.name) =
        (s.placed.find? (·.job.name = job.name)).or (some (.of refName job)) := by
      rw [List.find?_append, List.find?_singleton, if_pos (by simp)]
    rw [add_of_new hname hnowhere]
    refine ⟨?_, hfind⟩
    intro _
    cases hbefore : s.placed.find? (·.job.name = job.name) with
    | none => exact ⟨.of refName job, by rw [hfind, hbefore]; rfl⟩
    | some p => exact ⟨p, by rw [hfind, hbefore]; rfl⟩

/-- A search among the jobs of a stage finds the first one of the name, if no stage
before has one. -/
theorem find?_foldl (hnowhere : elsewhere name = none) (jobs : List JobDefinition) :
    ∀ s : JobSurvey, SeenPlaced name s →
      (jobs.foldl (add elsewhere stage refName) s).placed.find? (·.job.name = name) =
        (s.placed.find? (·.job.name = name)).or
          ((jobs.find? (·.name = name)).map (.of refName)) := by
  induction jobs with
  | nil => intro s _; simp
  | cons job jobs ih =>
      intro s hseen
      rw [List.foldl_cons]
      by_cases heq : job.name = name
      · subst heq
        obtain ⟨hstep, hfind⟩ := add_of_named stage refName hnowhere hseen
        -- the name is placed now, so no job behind this one is found for it
        rw [ih _ hstep, hfind, List.find?_cons_of_pos (by simp)]
        cases s.placed.find? (·.job.name = job.name) <;> rfl
      · obtain ⟨hstep, hfind⟩ := add_of_ne elsewhere stage refName heq hseen
        rw [ih _ hstep, hfind, List.find?_cons_of_neg (by simpa using heq)]

end JobSurvey

namespace Survey

variable {refName : String}

omit [Regex.Engine] in
theorem stageOf?_eq_none_of_find? {s : Survey} {name : String}
    (h : s.jobs.find? (·.job.name = name) = none) : s.stageOf? name = none := by
  rw [stageOf?_eq_none_iff]
  intro p hp heq
  exact List.find?_eq_none.mp h p hp (by simpa using heq)

/-- A search among the jobs of a survey finds the first one of the name in a stage that
is kept. -/
theorem find?_foldl (items : List (StageDefinition × Nat)) (name : String) :
    ∀ s : Survey, (items.foldl (add refName) s).jobs.find? (·.job.name = name) =
      (s.jobs.find? (·.job.name = name)).or
        (((declared (keptAfter s.names (s.placed.map (·.position)) items)).find?
          (·.name = name)).map (.of refName)) := by
  induction items with
  | nil =>
      intro s
      unfold keptAfter declared
      simp
  | cons item rest ih =>
      intro s
      -- the stage is passed over or kept by both, as the names and positions are the same
      rw [List.foldl_cons, ih]
      by_cases hname : item.1.name ∈ s.names
      · rw [add_of_repeated hname, keptAfter_of_repeated hname]
        rfl
      cases hother : s.placed.find? (·.position = position item.1 item.2) with
      | some other =>
          -- the stage that has been found holds the position
          have htaken : position item.1 item.2 ∈ s.placed.map (·.position) :=
            List.mem_map.mpr ⟨other, List.mem_of_find?_eq_some hother,
              by simpa using List.find?_some hother⟩
          rw [add_of_taken hname hother, keptAfter_of_taken hname htaken]
          rfl
      | none =>
          have hfree : position item.1 item.2 ∉ s.placed.map (·.position) := by
            intro hmem
            obtain ⟨p, hp, heq⟩ := List.mem_map.mp hmem
            exact List.find?_eq_none.mp hother p hp (by simpa using heq)
          rw [add_of_free hname hother, keptAfter_of_free hname hfree, jobs_append]
          simp only [declared, List.flatMap_cons, List.find?_append, List.map_append,
            List.map_cons, List.map_nil]
          cases hfind : s.jobs.find? (·.job.name = name) with
          | some p =>
              -- what an earlier stage declares counts, whatever this stage has
              simp only [Option.some_or]
          | none =>
              -- the name is new to this stage, so its first job of the name is placed
              have hplaced : (jobsOf refName s item.1).placed.find? (·.job.name = name) =
                  ((item.1.jobs.find? (·.name = name)).map (.of refName)) :=
                JobSurvey.find?_foldl (stageOf?_eq_none_of_find? hfind) item.1.jobs ⟨[], [], []⟩
                  (by intro hmem; cases hmem)
              rw [hplaced, Option.map_or, Option.none_or, Option.none_or]

/-- A search among the jobs of a survey finds the job that counts. -/
theorem find?_jobs_of (refName : String) (stages : List StageDefinition) (name : String) :
    (Survey.of refName stages).jobs.find? (·.job.name = name) =
      (firstDeclared stages name).map (.of refName) :=
  find?_foldl stages.zipIdx name empty

/-- **A survey places the jobs that count, and no others.** -/
theorem mem_of_jobs_iff {refName : String} {stages : List StageDefinition} {p : PlacedJob} :
    p ∈ (Survey.of refName stages).jobs ↔
      ∃ job, firstDeclared stages job.name = some job ∧ p = .of refName job := by
  constructor
  · intro hp
    have hfind := find?_of_nodup (sound_of refName stages).jobs_nodup hp
    rw [find?_jobs_of] at hfind
    obtain ⟨job, hfirst, rfl⟩ := Option.map_eq_some_iff.mp hfind
    exact ⟨job, hfirst, rfl⟩
  · intro h
    obtain ⟨job, hfirst, rfl⟩ := h
    have hfind := find?_jobs_of refName stages job.name
    rw [hfirst] at hfind
    exact List.mem_of_find?_eq_some hfind

/-- The jobs of a survey that take part are the kept ones. -/
theorem mem_of_taking_iff {refName : String} {stages : List StageDefinition} {p : PlacedJob} :
    (p ∈ (Survey.of refName stages).jobs ∧ p.verdict ≠ .excluded) ↔
      ∃ job, Kept refName stages job ∧ p = .of refName job := by
  rw [mem_of_jobs_iff]
  constructor
  · intro h
    obtain ⟨⟨job, hfirst, rfl⟩, hverdict⟩ := h
    exact ⟨job, ⟨hfirst, hverdict⟩, rfl⟩
  · intro h
    obtain ⟨job, hkept, rfl⟩ := h
    exact ⟨⟨job, hkept.first, rfl⟩, hkept.taking⟩

end Survey

/-! ## §3. What is known of a name. -/

section Standing

variable (refName : String) (stages : List StageDefinition) (name : String)

/-- No kept stage declares a job of the name. -/
theorem standing_undeclared_iff :
    (Survey.of refName stages).standing name = .undeclared ↔
      ∀ k ∈ declared (keptStages stages), k.name ≠ name := by
  unfold Survey.standing
  rw [Survey.find?_jobs_of, ← firstDeclared_eq_none_iff]
  cases hfirst : firstDeclared stages name with
  | none => exact ⟨fun _ => rfl, fun _ => rfl⟩
  | some job =>
      refine ⟨fun h => ?_, nofun⟩
      -- a job that counts is present or excluded
      dsimp only [Option.map_some] at h
      split at h <;> cases h

/-- The job of the name that counts is excluded by its rules. -/
theorem standing_excluded_iff :
    (Survey.of refName stages).standing name = .excluded ↔
      ∃ k, firstDeclared stages name = some k ∧ Excluded refName k := by
  unfold Survey.standing
  rw [Survey.find?_jobs_of]
  cases hfirst : firstDeclared stages name with
  | none => simp
  | some job =>
      simp only [Option.map_some, Option.some.injEq, exists_eq_left']
      by_cases hexcluded : Excluded refName job
      · rw [if_pos (show (PlacedJob.of refName job).verdict = .excluded from hexcluded)]
        exact ⟨fun _ => hexcluded, fun _ => rfl⟩
      · rw [if_neg (show ¬(PlacedJob.of refName job).verdict = .excluded from hexcluded)]
        exact ⟨nofun, fun h => absurd h hexcluded⟩

end Standing

/-! ## §4. What is reported of needs. -/

namespace ResolvedNeeds

omit [Regex.Engine] in
/-- Either the number of the needs is reported, or each of them is. -/
theorem of_problems (standing : String → Standing) (maxNeeds : UInt64) (job : JobDefinition) :
    (of standing maxNeeds job).problems =
      if maxNeeds.toNat < job.needs.length then
        [.tooManyNeeds job.name maxNeeds.toNat job.needs.length]
      else job.needs.flatMap (problemsOf standing job.name) := by
  unfold of
  by_cases hlimit : maxNeeds.toNat < job.needs.length
  · rw [if_pos hlimit, if_pos hlimit]
  · rw [if_neg hlimit, if_neg hlimit, foldl_add_problems, List.nil_append]

end ResolvedNeeds

/-- What can be wrong with the needs of a kept job. -/
inductive NeedFault (refName : String) (stages : List StageDefinition) (maxNeeds : UInt64)
    (job : JobDefinition) : Problem → Prop where
  /-- There are more of them than the limit. -/
  | tooMany (hlimit : maxNeeds.toNat < job.needs.length) :
      NeedFault refName stages maxNeeds job
        (.tooManyNeeds job.name maxNeeds.toNat job.needs.length)
  /-- No kept stage declares a job of the name. -/
  | undefined {n : Need} (hlimit : job.needs.length ≤ maxNeeds.toNat) (hn : n ∈ job.needs)
      (hnone : ∀ k ∈ declared (keptStages stages), k.name ≠ n.job) :
      NeedFault refName stages maxNeeds job (.undefinedNeed job.name n.job)
  /-- The job of the name is excluded, and the need is not optional. -/
  | excluded {n : Need} {k : JobDefinition} (hlimit : job.needs.length ≤ maxNeeds.toNat)
      (hn : n ∈ job.needs) (hoptional : n.optional = false)
      (hfirst : firstDeclared stages n.job = some k) (hexcluded : Excluded refName k) :
      NeedFault refName stages maxNeeds job (.excludedNeed job.name n.job)

section NeedFaults

variable {refName : String} {stages : List StageDefinition} {maxNeeds : UInt64}

/-- What is reported of the needs of a job is what is wrong with them. -/
theorem mem_resolved_problems_iff {job : JobDefinition} {q : Problem} :
    q ∈ (ResolvedNeeds.of (Survey.of refName stages).standing maxNeeds job).problems ↔
      NeedFault refName stages maxNeeds job q := by
  rw [ResolvedNeeds.of_problems]
  by_cases hlimit : maxNeeds.toNat < job.needs.length
  · -- the single needs are not looked at
    rw [if_pos hlimit, List.mem_singleton]
    constructor
    · intro h
      rw [h]
      exact .tooMany hlimit
    · intro h
      cases h with
      | tooMany _ => rfl
      | undefined hle => omega
      | excluded hle => omega
  · rw [if_neg hlimit, List.mem_flatMap]
    constructor
    · intro h
      obtain ⟨n, hn, hq⟩ := h
      have hle : job.needs.length ≤ maxNeeds.toNat := by omega
      unfold ResolvedNeeds.problemsOf at hq
      split at hq
      case h_1 hstanding =>
        rw [List.mem_singleton.mp hq]
        exact .undefined hle hn ((standing_undeclared_iff refName stages n.job).mp hstanding)
      case h_2 hstanding =>
        obtain ⟨k, hfirst, hexcluded⟩ := (standing_excluded_iff refName stages n.job).mp hstanding
        split at hq
        case isTrue => cases hq
        case isFalse hoptional =>
          rw [List.mem_singleton.mp hq]
          exact .excluded hle hn (by simpa using hoptional) hfirst hexcluded
      case h_3 => cases hq
    · intro h
      cases h with
      | tooMany hover => exact absurd hover hlimit
      | @undefined n _ hn hnone =>
          refine ⟨n, hn, ?_⟩
          unfold ResolvedNeeds.problemsOf
          rw [(standing_undeclared_iff refName stages n.job).mpr hnone]
          exact List.mem_singleton.mpr rfl
      | @excluded n k _ hn hoptional hfirst hexcluded =>
          refine ⟨n, hn, ?_⟩
          unfold ResolvedNeeds.problemsOf
          rw [(standing_excluded_iff refName stages n.job).mpr ⟨k, hfirst, hexcluded⟩]
          simp [hoptional]

/-- **The problems of a graph are the clashes that the survey reports, what is wrong with
the needs of kept jobs, and the rings of the digraph.** -/
theorem mem_problems_iff {q : Problem} :
    q ∈ (Graph.of refName stages maxNeeds).problems ↔
      q ∈ (Survey.of refName stages).problems ∨
        (∃ job, Kept refName stages job ∧ NeedFault refName stages maxNeeds job q) ∨
          ∃ ring ∈ (digraph (Graph.of refName stages maxNeeds).stages).cycles, .cycle ring = q := by
  rw [Graph.of_problems, List.mem_append, List.mem_append, List.mem_map, or_assoc]
  refine or_congr_right (or_congr_left ?_)
  simp only [draftJobs, List.mem_flatMap, List.mem_filterMap, Option.map_eq_some_iff]
  constructor
  · intro h
    obtain ⟨stage, hstage, _, ⟨p, hp, w, hw, rfl⟩, hq⟩ := h
    have hmem : p ∈ (Survey.of refName stages).jobs := List.mem_flatMap.mpr ⟨stage, hstage, hp⟩
    obtain ⟨job, hkept, rfl⟩ := Survey.mem_of_taking_iff.mp
      ⟨hmem, (when?_eq_some_iff p).mp ⟨w, hw⟩⟩
    exact ⟨job, hkept, mem_resolved_problems_iff.mp hq⟩
  · intro h
    obtain ⟨job, hkept, hfault⟩ := h
    obtain ⟨hmem, hverdict⟩ := Survey.mem_of_taking_iff.mpr ⟨job, hkept, rfl⟩
    obtain ⟨stage, hstage, hp⟩ := List.mem_flatMap.mp hmem
    obtain ⟨w, hw⟩ := (when?_eq_some_iff _).mpr hverdict
    exact ⟨stage, hstage, _, ⟨_, hp, w, hw, rfl⟩, mem_resolved_problems_iff.mpr hfault⟩

end NeedFaults

end CiPipeline.Graph
