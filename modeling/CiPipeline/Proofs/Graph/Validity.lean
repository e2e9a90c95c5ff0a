/-
  CiPipeline.Proofs.Graph.Validity
  ────────────────────────────────
  **Valid graphs come from well-formed definitions, and from no others.**

  What makes a definition well formed is said here of its stages, jobs, rules and
  needs alone, without the survey, the drafts or the search that building a graph
  goes through.  Main statement: `isValid_iff_wellFormed`.
-/
import CiPipeline.Definition.Samples
import CiPipeline.Proofs.Graph.Structure
import CiPipeline.Regex.Standard

namespace CiPipeline.Graph

section

variable [Regex.Engine]

/-! ## §1. Well-formed definitions. -/

/-- The rules of a job include it for a ref. -/
def Included (refName : String) (job : JobDefinition) : Prop :=
  ∃ w, Rule.judge job.rules refName job.when = .included w

/-- The rules of a job exclude it for a ref. -/
def Excluded (refName : String) (job : JobDefinition) : Prop :=
  Rule.judge job.rules refName job.when = .excluded

/-- All jobs that stages declare. -/
def declared (stages : List StageDefinition) : List JobDefinition := stages.flatMap (·.jobs)

/-- The position of each stage: its index, or its place in the order of
declaration. -/
def positions (stages : List StageDefinition) : List UInt64 :=
  stages.zipIdx.map fun item => item.1.index.getD (UInt64.ofNat item.2)

/-- An included job needs an included job. -/
def IncludedNeeds (refName : String) (stages : List StageDefinition) (a b : String) : Prop :=
  ∃ j ∈ declared stages, Included refName j ∧ j.name = a ∧ (∃ n ∈ j.needs, n.job = b) ∧
    ∃ k ∈ declared stages, Included refName k ∧ k.name = b

/-- A definition from which a graph without problems can be built for a ref. -/
structure WellFormed (refName : String) (stages : List StageDefinition) (maxNeeds : UInt64) :
    Prop where
  stages_distinct : (stages.map (·.name)).Nodup
  positions_distinct : (positions stages).Nodup
  jobs_distinct : ((declared stages).map (·.name)).Nodup
  rules_readable : ∀ j ∈ declared stages, ∀ pattern,
    Rule.judge j.rules refName j.when ≠ .invalidPattern pattern
  needs_limited : ∀ j ∈ declared stages, Included refName j → j.needs.length ≤ maxNeeds.toNat
  needs_declared : ∀ j ∈ declared stages, Included refName j → ∀ n ∈ j.needs,
    ∃ k ∈ declared stages, k.name = n.job
  excluded_optional : ∀ j ∈ declared stages, Included refName j → ∀ n ∈ j.needs,
    (∃ k ∈ declared stages, Excluded refName k ∧ k.name = n.job) → n.optional = true
  acyclic : AcyclicRel (IncludedNeeds refName stages)

/-! ## §2. A survey that finds nothing wrong. -/

section Clean

variable {refName : String} {stages : List StageDefinition}

omit [Regex.Engine] in
theorem flatMap_zipIdx_jobs (stages : List StageDefinition) :
    (stages.zipIdx.flatMap fun item => item.1.jobs) = declared stages := by
  have hfst : stages.zipIdx.map Prod.fst = stages := List.zipIdx_map_fst 0 stages
  conv_rhs => rw [declared, ← hfst, List.flatMap_map]

theorem wellDeclared_iff (refName : String) (stages : List StageDefinition) :
    Survey.WellDeclared refName stages.zipIdx ↔
      (stages.map (·.name)).Nodup ∧ (positions stages).Nodup ∧
        ((declared stages).map (·.name)).Nodup ∧
          ∀ j ∈ declared stages, ∀ pattern,
            Rule.judge j.rules refName j.when ≠ .invalidPattern pattern := by
  have hnames : (stages.zipIdx.map fun item => item.1.name) = stages.map (·.name) := by
    have hfst : stages.zipIdx.map Prod.fst = stages := List.zipIdx_map_fst 0 stages
    conv_rhs => rw [← hfst, List.map_map]
    rfl
  rw [← hnames, ← flatMap_zipIdx_jobs]
  exact ⟨fun h => ⟨h.stages, h.positions, h.jobs, h.rules⟩,
    fun h => ⟨h.1, h.2.1, h.2.2.1, h.2.2.2⟩⟩

/-- Where all rules can be read, a job that is not excluded is included. -/
theorem not_excluded_iff {job : JobDefinition}
    (h : ∀ pattern, Rule.judge job.rules refName job.when ≠ .invalidPattern pattern) :
    ¬Excluded refName job ↔ Included refName job := by
  unfold Excluded Included
  cases hjudge : Rule.judge job.rules refName job.when with
  | included w => simp
  | excluded => simp
  | invalidPattern pattern => exact absurd hjudge (h pattern)

variable (h : Survey.WellDeclared refName stages.zipIdx)

include h

theorem clean_jobs : (Survey.of refName stages).jobs = (declared stages).map (.of refName) := by
  rw [Survey.of_eq_whole h, Survey.jobs_whole, flatMap_zipIdx_jobs]

theorem clean_readable : ∀ j ∈ declared stages, ∀ pattern,
    Rule.judge j.rules refName j.when ≠ .invalidPattern pattern := by
  rw [← flatMap_zipIdx_jobs]
  exact h.rules

theorem clean_undeclared_iff (name : String) :
    (Survey.of refName stages).standing name = .undeclared ↔
      ¬∃ k ∈ declared stages, k.name = name := by
  rw [Survey.standing_eq_undeclared_iff, clean_jobs h]
  simp only [List.mem_map, forall_exists_index, and_imp, forall_apply_eq_imp_iff₂, not_exists,
    not_and]
  rfl

theorem clean_excluded_iff (name : String) :
    (Survey.of refName stages).standing name = .excluded ↔
      ∃ k ∈ declared stages, Excluded refName k ∧ k.name = name := by
  rw [Survey.standing_eq_excluded_iff (Survey.sound_of refName stages), clean_jobs h]
  constructor
  · intro h
    obtain ⟨p, hp, hname, hverdict⟩ := h
    obtain ⟨k, hk, rfl⟩ := List.mem_map.mp hp
    exact ⟨k, hk, hverdict, hname⟩
  · intro h
    obtain ⟨k, hk, hexcluded, hname⟩ := h
    exact ⟨.of refName k, List.mem_map_of_mem hk, hname, hexcluded⟩

theorem clean_present_iff (name : String) :
    (Survey.of refName stages).standing name = .present ↔
      ∃ k ∈ declared stages, Included refName k ∧ k.name = name := by
  rw [Survey.standing_eq_present_iff (Survey.sound_of refName stages), clean_jobs h]
  constructor
  · intro h
    obtain ⟨p, hp, hname, hverdict⟩ := h
    obtain ⟨k, hk, rfl⟩ := List.mem_map.mp hp
    exact ⟨k, hk, (not_excluded_iff (clean_readable h k hk)).mp hverdict, hname⟩
  · intro h
    obtain ⟨k, hk, hincluded, hname⟩ := h
    exact ⟨.of refName k, List.mem_map_of_mem hk, hname,
      (not_excluded_iff (clean_readable h k hk)).mpr hincluded⟩

/-- Nothing is wrong with the needs of the jobs that take part. -/
theorem clean_needs_iff (maxNeeds : UInt64) :
    (∀ p ∈ (Survey.of refName stages).jobs, p.verdict ≠ .excluded →
      (ResolvedNeeds.of (Survey.of refName stages).standing maxNeeds p.job).problems = []) ↔
    ∀ j ∈ declared stages, Included refName j → j.needs.length ≤ maxNeeds.toNat ∧
      ∀ n ∈ j.needs, (∃ k ∈ declared stages, k.name = n.job) ∧
        ((∃ k ∈ declared stages, Excluded refName k ∧ k.name = n.job) → n.optional = true) := by
  have hplaced : ∀ j ∈ declared stages,
      ((PlacedJob.of refName j).verdict ≠ .excluded ↔ Included refName j) :=
    fun j hj => not_excluded_iff (clean_readable h j hj)
  simp only [ResolvedNeeds.of_problems_eq_nil_iff, ne_eq, clean_undeclared_iff h,
    clean_excluded_iff h, not_not]
  rw [clean_jobs h]
  constructor
  · intro hall j hj hincluded
    exact hall (.of refName j) (List.mem_map_of_mem hj) ((hplaced j hj).mpr hincluded)
  · intro hall p hp hverdict
    obtain ⟨j, hj, rfl⟩ := List.mem_map.mp hp
    exact hall j hj ((hplaced j hj).mp hverdict)

/-- If no included job has too many needs, the graph needs what included jobs need. -/
theorem clean_graph_needs_iff {maxNeeds : UInt64}
    (hlimit : ∀ j ∈ declared stages, Included refName j → j.needs.length ≤ maxNeeds.toNat)
    (a b : String) :
    (Graph.of refName stages maxNeeds).Needs a b ↔ IncludedNeeds refName stages a b := by
  rw [of_needs_iff, clean_present_iff h, clean_jobs h]
  unfold IncludedNeeds
  constructor
  · intro h
    obtain ⟨p, hp, hverdict, hname, -, hneed, hpresent⟩ := h
    obtain ⟨j, hj, rfl⟩ := List.mem_map.mp hp
    exact ⟨j, hj, (not_excluded_iff (clean_readable h j hj)).mp hverdict, hname, hneed, hpresent⟩
  · intro h
    obtain ⟨j, hj, hincluded, hname, hneed, hpresent⟩ := h
    exact ⟨.of refName j, List.mem_map_of_mem hj,
      (not_excluded_iff (clean_readable h j hj)).mpr hincluded, hname, hlimit j hj hincluded,
      hneed, hpresent⟩

end Clean

/-! ## §3. Validity. -/

/-- **A graph is valid exactly if the definition is well formed for the ref.** -/
theorem isValid_iff_wellFormed (refName : String) (stages : List StageDefinition)
    (maxNeeds : UInt64) :
    (Graph.of refName stages maxNeeds).isValid = true ↔ WellFormed refName stages maxNeeds := by
  rw [of_isValid_iff, Survey.problems_of_eq_nil_iff]
  constructor
  · intro h
    obtain ⟨hdeclared, hneeds, hacyclic⟩ := h
    obtain ⟨hstages, hpositions, hjobs, hrules⟩ := (wellDeclared_iff refName stages).mp hdeclared
    have hneeds := (clean_needs_iff hdeclared maxNeeds).mp hneeds
    refine ⟨hstages, hpositions, hjobs, hrules, fun j hj hi => (hneeds j hj hi).1,
      fun j hj hi n hn => ((hneeds j hj hi).2 n hn).1,
      fun j hj hi n hn => ((hneeds j hj hi).2 n hn).2, hacyclic.mono fun a b hab => ?_⟩
    -- a job over the limit would need nothing in the graph
    exact (clean_graph_needs_iff hdeclared (fun j hj hi => (hneeds j hj hi).1) a b).mpr hab
  · intro hw
    have hdeclared := (wellDeclared_iff refName stages).mpr
      ⟨hw.stages_distinct, hw.positions_distinct, hw.jobs_distinct, hw.rules_readable⟩
    refine ⟨hdeclared, (clean_needs_iff hdeclared maxNeeds).mpr fun j hj hi => ⟨?_, ?_⟩, ?_⟩
    · exact hw.needs_limited j hj hi
    · intro n hn
      exact ⟨hw.needs_declared j hj hi n hn, hw.excluded_optional j hj hi n hn⟩
    · refine hw.acyclic.mono fun a b hab => ?_
      exact (clean_graph_needs_iff hdeclared hw.needs_limited a b).mp hab

end

example : (Graph.of "main" Definition.buildAndTest.stages 1).isValid = true := by
  decide +kernel

example : (Graph.of "main" Definition.cyclicNeeds.stages 1).isValid = false := by
  decide +kernel

end CiPipeline.Graph
