/-
  CiPipeline.Proofs.Graph.Clashes
  ───────────────────────────────
  **What a survey reports is there.**

  A survey looks at one declaration after the other and knows only what it has kept of
  those before.  Whatever it reports is nevertheless to be seen in the declarations
  themselves: two of them that clash, or a rule that cannot be read (`Clash`).  Main
  statement: `Survey.clash_of_mem_problems`.
-/
import CiPipeline.Proofs.Graph.Survey

namespace CiPipeline.Graph

/-- Two members of a list, one behind the other, stay so when more are appended. -/
theorem pair_sublist_concat {α : Type} {l : List α} {a : α} (h : a ∈ l) (b : α) :
    [a, b].Sublist (l ++ [b]) :=
  List.Sublist.append (List.singleton_sublist.mpr h) (.refl [b])

/-! ## §1. Rules that cannot be read. -/

variable [Regex.Engine]

/-- A job has a rule with a pattern that is no regular expression. -/
def Unreadable (job : JobDefinition) (pattern : String) : Prop :=
  ∃ r ∈ job.rules, r.ifRef = some pattern ∧ Regex.Engine.read? pattern = none

/-- A rule that says nothing of a ref has a pattern, and that pattern is no regular
expression. -/
theorem read?_of_applies?_eq_none {r : Rule} {refName : String}
    (h : r.applies? refName = none) :
    ∃ pattern, r.ifRef = some pattern ∧ Regex.Engine.read? pattern = none := by
  unfold Rule.applies? at h
  cases hpattern : r.ifRef with
  | none => rw [hpattern] at h; cases h
  | some pattern =>
      rw [hpattern] at h
      exact ⟨pattern, rfl, Option.map_eq_none_iff.mp h⟩

theorem unreadable_of_firstMatch {refName pattern : String} {w : When} :
    ∀ {rules : List Rule}, Rule.firstMatch rules refName w = .invalidPattern pattern →
      ∃ r ∈ rules, r.ifRef = some pattern ∧ Regex.Engine.read? pattern = none := by
  have hofWhen : ∀ u, Verdict.ofWhen u ≠ .invalidPattern pattern := by
    intro u hu
    unfold Verdict.ofWhen at hu
    split at hu <;> cases hu
  -- along the rules, up to the one at which the search stops
  intro rules
  induction rules with
  | nil => intro h; cases h
  | cons r rest ih =>
      intro h
      unfold Rule.firstMatch at h
      cases happlies : r.applies? refName with
      | none =>
          rw [happlies] at h
          obtain ⟨text, htext, hreject⟩ := read?_of_applies?_eq_none happlies
          rw [htext] at h
          cases h
          exact ⟨r, List.mem_cons_self, htext, hreject⟩
      | some applies =>
          rw [happlies] at h
          cases applies with
          | true => exact absurd h (hofWhen _)
          | false =>
              obtain ⟨r', hr', hrest⟩ := ih h
              exact ⟨r', List.mem_cons_of_mem _ hr', hrest⟩

/-- What is reported of the rules of a job is the pattern of one of them. -/
theorem unreadable_of_judge {job : JobDefinition} {refName pattern : String}
    (h : Rule.judge job.rules refName job.when = .invalidPattern pattern) :
    Unreadable job pattern := by
  unfold Rule.judge at h
  split at h
  · -- without rules there is no pattern to report
    unfold Verdict.ofWhen at h
    split at h <;> cases h
  · exact unreadable_of_firstMatch h

/-! ## §2. The jobs of a stage. -/

/-- What can be wrong with the jobs of a stage, next to those of the stages before. -/
inductive JobClash (elsewhere : String → Option String) (stage : String)
    (jobs : List JobDefinition) : Problem → Prop where
  /-- Two jobs of the stage have one name. -/
  | repeated {j k : JobDefinition} (hpair : [j, k].Sublist jobs) (hname : j.name = k.name) :
      JobClash elsewhere stage jobs (.duplicateJob stage k.name)
  /-- Another stage has a job of the name. -/
  | elsewhere {k : JobDefinition} {first : String} (hk : k ∈ jobs)
      (hfirst : elsewhere k.name = some first) :
      JobClash elsewhere stage jobs (.duplicateAcross k.name first stage)
  /-- A rule of a job cannot be read. -/
  | rule {k : JobDefinition} {pattern : String} (hk : k ∈ jobs) (hrule : Unreadable k pattern) :
      JobClash elsewhere stage jobs (.rulePattern k.name pattern)

/-- A clash stays one when more jobs follow. -/
theorem JobClash.append {elsewhere : String → Option String} {stage : String}
    {jobs : List JobDefinition} {q : Problem} (h : JobClash elsewhere stage jobs q)
    (more : List JobDefinition) : JobClash elsewhere stage (jobs ++ more) q := by
  cases h with
  | repeated hpair hname =>
      exact .repeated (hpair.trans (List.sublist_append_left jobs more)) hname
  | elsewhere hk hfirst => exact .elsewhere (List.mem_append_left more hk) hfirst
  | rule hk hrule => exact .rule (List.mem_append_left more hk) hrule

namespace JobSurvey

variable {elsewhere : String → Option String} {stage refName : String}

/-- What a survey has seen, placed and reported comes from the jobs so far. -/
structure Witnessed (elsewhere : String → Option String) (stage : String)
    (jobs : List JobDefinition) (s : JobSurvey) : Prop where
  names : ∀ name ∈ s.names, ∃ j ∈ jobs, j.name = name
  placed : ∀ p ∈ s.placed, p.job ∈ jobs
  problems : ∀ q ∈ s.problems, JobClash elsewhere stage jobs q

/-- What comes from the jobs so far comes from them and one more. -/
theorem Witnessed.append {jobs : List JobDefinition} {s : JobSurvey}
    (h : Witnessed elsewhere stage jobs s) (more : List JobDefinition) :
    Witnessed elsewhere stage (jobs ++ more) s := by
  refine ⟨?_, ?_, ?_⟩
  · intro name hname
    obtain ⟨j, hj, heq⟩ := h.names name hname
    exact ⟨j, List.mem_append_left more hj, heq⟩
  · intro p hp
    exact List.mem_append_left more (h.placed p hp)
  · intro q hq
    exact (h.problems q hq).append more

/-- The problem of a placed job is a rule of it that cannot be read. -/
theorem unreadable_of_mem_problems {job : JobDefinition} {q : Problem}
    (hq : q ∈ (PlacedJob.of refName job).problems) :
    ∃ pattern, q = .rulePattern job.name pattern ∧ Unreadable job pattern := by
  unfold PlacedJob.problems at hq
  split at hq
  case h_1 pattern hverdict =>
    exact ⟨pattern, List.mem_singleton.mp hq, unreadable_of_judge hverdict⟩
  case h_2 => cases hq

/-- One more job is reported for what it is. -/
theorem Witnessed.add {jobs : List JobDefinition} {s : JobSurvey}
    (h : Witnessed elsewhere stage jobs s) (job : JobDefinition) :
    Witnessed elsewhere stage (jobs ++ [job]) (add elsewhere stage refName s job) := by
  -- what is there already stays witnessed, so only the new entries are left to show
  have hold := h.append [job]
  have hjob : job ∈ jobs ++ [job] := by simp
  have hnames : ∀ name ∈ job.name :: s.names, ∃ j ∈ jobs ++ [job], j.name = name := by
    intro name hname
    rcases List.mem_cons.mp hname with rfl | hname
    · exact ⟨job, hjob, rfl⟩
    · exact hold.names name hname
  by_cases hname : job.name ∈ s.names
  · -- the name is that of a job before, which is the other half of the pair
    rw [add_of_repeated hname]
    obtain ⟨j, hj, heq⟩ := h.names job.name hname
    refine ⟨hold.names, hold.placed, List.forall_mem_append.mpr ⟨hold.problems, ?_⟩⟩
    rw [List.forall_mem_singleton]
    exact .repeated (pair_sublist_concat hj job) heq
  cases hfirst : elsewhere job.name with
  | some first =>
      rw [add_of_elsewhere hname hfirst]
      refine ⟨hnames, hold.placed, List.forall_mem_append.mpr ⟨hold.problems, ?_⟩⟩
      rw [List.forall_mem_singleton]
      exact .elsewhere hjob hfirst
  | none =>
      rw [add_of_new hname hfirst]
      refine ⟨hnames, List.forall_mem_append.mpr ⟨hold.placed, ?_⟩,
        List.forall_mem_append.mpr ⟨hold.problems, ?_⟩⟩
      · rw [List.forall_mem_singleton]
        exact hjob
      · intro q hq
        obtain ⟨pattern, rfl, hrule⟩ := unreadable_of_mem_problems hq
        exact .rule hjob hrule

/-- What is reported of the jobs of a stage is there. -/
theorem witnessed_foldl (jobs : List JobDefinition) :
    Witnessed elsewhere stage jobs (jobs.foldl (add elsewhere stage refName) ⟨[], [], []⟩) := by
  -- from the back, since what a job clashes with stands before it
  induction jobs using List.reverseRecOn with
  | nil => exact ⟨by simp, by simp, by simp⟩
  | append_singleton jobs job ih =>
      rw [List.foldl_append]
      exact ih.add job

end JobSurvey

/-! ## §3. The stages. -/

/-- What a survey can find wrong with declarations in their places. -/
inductive Clash (items : List (StageDefinition × Nat)) : Problem → Prop where
  /-- Two stages have one name. -/
  | stage {a b : StageDefinition × Nat} (hpair : [a, b].Sublist items)
      (hname : a.1.name = b.1.name) : Clash items (.duplicateStage b.1.name)
  /-- Two stages of different names ask for one position. -/
  | position {a b : StageDefinition × Nat} (hpair : [a, b].Sublist items)
      (hname : a.1.name ≠ b.1.name)
      (hposition : Survey.position a.1 a.2 = Survey.position b.1 b.2) :
      Clash items (.stagePosition b.1.name a.1.name (Survey.position b.1 b.2))
  /-- Two jobs of a stage have one name. -/
  | job {a : StageDefinition × Nat} {j k : JobDefinition} (ha : a ∈ items)
      (hpair : [j, k].Sublist a.1.jobs) (hname : j.name = k.name) :
      Clash items (.duplicateJob a.1.name k.name)
  /-- Two stages of different names have jobs of one name. -/
  | across {a b : StageDefinition × Nat} {j k : JobDefinition} (hpair : [a, b].Sublist items)
      (hstages : a.1.name ≠ b.1.name) (hj : j ∈ a.1.jobs) (hk : k ∈ b.1.jobs)
      (hname : j.name = k.name) : Clash items (.duplicateAcross k.name a.1.name b.1.name)
  /-- A rule of a job cannot be read. -/
  | rule {a : StageDefinition × Nat} {k : JobDefinition} {pattern : String} (ha : a ∈ items)
      (hk : k ∈ a.1.jobs) (hrule : Unreadable k pattern) :
      Clash items (.rulePattern k.name pattern)

/-- A clash stays one when more declarations follow. -/
theorem Clash.append {items : List (StageDefinition × Nat)} {q : Problem} (h : Clash items q)
    (more : List (StageDefinition × Nat)) : Clash (items ++ more) q := by
  have hsub : items.Sublist (items ++ more) := List.sublist_append_left items more
  cases h with
  | stage hpair hname => exact .stage (hpair.trans hsub) hname
  | position hpair hname hposition => exact .position (hpair.trans hsub) hname hposition
  | job ha hpair hname => exact .job (hsub.mem ha) hpair hname
  | across hpair hstages hj hk hname => exact .across (hpair.trans hsub) hstages hj hk hname
  | rule ha hk hrule => exact .rule (hsub.mem ha) hk hrule

namespace Survey

variable {refName : String}

omit [Regex.Engine] in
/-- A stage in which a job is declared is placed, with the job. -/
theorem mem_of_stageOf? {s : Survey} {job stage : String} (h : s.stageOf? job = some stage) :
    ∃ p ∈ s.placed, p.name = stage ∧ ∃ q ∈ p.jobs, q.job.name = job := by
  unfold stageOf? at h
  obtain ⟨p, hfind, hname⟩ := Option.map_eq_some_iff.mp h
  have hany := List.find?_some hfind
  obtain ⟨q, hq, heq⟩ := List.any_eq_true.mp hany
  exact ⟨p, List.mem_of_find?_eq_some hfind, hname, q, hq, of_decide_eq_true heq⟩

/-- A placed stage is that of a declaration, and so are its jobs. -/
structure PlacedFrom (a : StageDefinition × Nat) (p : PlacedStage) : Prop where
  name : a.1.name = p.name
  position : Survey.position a.1 a.2 = p.position
  jobs : ∀ q ∈ p.jobs, q.job ∈ a.1.jobs

omit [Regex.Engine] in
/-- A stage that has been seen is not called as one that is new. -/
theorem PlacedFrom.name_ne {a : StageDefinition × Nat} {p : PlacedStage} (h : PlacedFrom a p)
    {names : List String} {name : String} (hseen : p.name ∈ names) (hnew : name ∉ names) :
    a.1.name ≠ name := by
  intro heq
  rw [h.name] at heq
  exact hnew (heq ▸ hseen)

/-- What a survey has seen, placed and reported comes from the declarations so far. -/
structure Witnessed (items : List (StageDefinition × Nat)) (s : Survey) : Prop where
  names : ∀ name ∈ s.names, ∃ a ∈ items, a.1.name = name
  placed : ∀ p ∈ s.placed, ∃ a ∈ items, PlacedFrom a p
  problems : ∀ q ∈ s.problems, Clash items q

/-- What comes from the declarations so far comes from them and more of them. -/
theorem Witnessed.append {items : List (StageDefinition × Nat)} {s : Survey}
    (h : Witnessed items s) (more : List (StageDefinition × Nat)) :
    Witnessed (items ++ more) s := by
  refine ⟨?_, ?_, ?_⟩
  · intro name hname
    obtain ⟨a, ha, heq⟩ := h.names name hname
    exact ⟨a, List.mem_append_left more ha, heq⟩
  · intro p hp
    obtain ⟨a, ha, hfrom⟩ := h.placed p hp
    exact ⟨a, List.mem_append_left more ha, hfrom⟩
  · intro q hq
    exact (h.problems q hq).append more

/-- A clash of a job of the next declaration is one of the declarations. -/
theorem Witnessed.clash_of_jobClash {items : List (StageDefinition × Nat)} {s : Survey}
    (h : Witnessed items s) (hsound : Sound refName s) {item : StageDefinition × Nat}
    (hname : item.1.name ∉ s.names) {q : Problem}
    (hq : JobClash s.stageOf? item.1.name item.1.jobs q) : Clash (items ++ [item]) q := by
  have hitem : item ∈ items ++ [item] := by simp
  cases hq with
  | repeated hpair heq => exact .job hitem hpair heq
  | rule hk hrule => exact .rule hitem hk hrule
  | elsewhere hk hfirst =>
      obtain ⟨p, hp, rfl, r, hr, hjob⟩ := mem_of_stageOf? hfirst
      obtain ⟨a, ha, hfrom⟩ := h.placed p hp
      have hne : a.1.name ≠ item.1.name := hfrom.name_ne (hsound.mem_names p hp) hname
      rw [← hfrom.name]
      exact .across (pair_sublist_concat ha item) hne (hfrom.jobs r hr) hk hjob

/-- One more declaration is reported for what it is. -/
theorem Witnessed.add {items : List (StageDefinition × Nat)} {s : Survey}
    (h : Witnessed items s) (hsound : Sound refName s) (item : StageDefinition × Nat) :
    Witnessed (items ++ [item]) (add refName s item) := by
  have hold := h.append [item]
  have hitem : item ∈ items ++ [item] := by simp
  have hnames : ∀ name ∈ item.1.name :: s.names, ∃ a ∈ items ++ [item], a.1.name = name := by
    intro name hname
    rcases List.mem_cons.mp hname with rfl | hname
    · exact ⟨item, hitem, rfl⟩
    · exact hold.names name hname
  by_cases hname : item.1.name ∈ s.names
  · rw [add_of_repeated hname]
    -- whether that stage was kept or passed over itself does not matter
    obtain ⟨a, ha, heq⟩ := h.names item.1.name hname
    refine ⟨hold.names, hold.placed, List.forall_mem_append.mpr ⟨hold.problems, ?_⟩⟩
    rw [List.forall_mem_singleton]
    exact .stage (pair_sublist_concat ha item) heq
  cases hother : s.placed.find? (·.position = position item.1 item.2) with
  | some other =>
      have hmem : other ∈ s.placed := List.mem_of_find?_eq_some hother
      have hposition : other.position = position item.1 item.2 := by
        simpa using List.find?_some hother
      obtain ⟨a, ha, hfrom⟩ := h.placed other hmem
      have hne : a.1.name ≠ item.1.name := hfrom.name_ne (hsound.mem_names other hmem) hname
      rw [add_of_taken hname hother]
      refine ⟨hnames, hold.placed, List.forall_mem_append.mpr ⟨hold.problems, ?_⟩⟩
      rw [List.forall_mem_singleton, ← hfrom.name]
      exact .position (pair_sublist_concat ha item) hne (hfrom.position.trans hposition)
  | none =>
      have hjobs : JobSurvey.Witnessed s.stageOf? item.1.name item.1.jobs
          (jobsOf refName s item.1) := JobSurvey.witnessed_foldl item.1.jobs
      rw [add_of_free hname hother]
      refine ⟨hnames, List.forall_mem_append.mpr ⟨hold.placed, ?_⟩,
        List.forall_mem_append.mpr ⟨hold.problems, ?_⟩⟩
      · rw [List.forall_mem_singleton]
        exact ⟨item, hitem, rfl, rfl, hjobs.placed⟩
      · intro q hq
        exact h.clash_of_jobClash hsound hname (hjobs.problems q hq)

/-- What a survey of declarations holds comes from them. -/
theorem witnessed_of (refName : String) (stages : List StageDefinition) :
    Witnessed stages.zipIdx (Survey.of refName stages) := by
  have hfold : ∀ items : List (StageDefinition × Nat),
      Witnessed items (items.foldl (Survey.add refName) empty) := by
    intro items
    -- the invariant of the stages comes along: it tells stages that are placed from new ones
    induction items using List.reverseRecOn with
    | nil => exact ⟨by simp [empty], by simp [empty], by simp [empty]⟩
    | append_singleton items item ih =>
        rw [List.foldl_append]
        exact ih.add (sound_foldl items (sound_empty refName)) item
  exact hfold stages.zipIdx

/-- **Whatever a survey reports is a clash of the declarations.** -/
theorem clash_of_mem_problems {refName : String} {stages : List StageDefinition} {q : Problem}
    (h : q ∈ (Survey.of refName stages).problems) : Clash stages.zipIdx q :=
  (witnessed_of refName stages).problems q h

end Survey

end CiPipeline.Graph
