/-
  CiPipeline.Proofs.Graph.Reporting
  ─────────────────────────────────
  **Which needs are reported in one go.**

  A user is to see all that is wrong at once.  What is wrong with the needs of a kept job
  is reported whatever else is wrong, in the job or anywhere else, with one exception: the
  needs of a job that has too many of them are not looked at one by one.  So a need
  that does not hold is kept back until their number has been mended, and exactly then
  (`needs_reported_iff`).
-/
import CiPipeline.Proofs.Graph.Declarations
import CiPipeline.Regex.Standard

namespace CiPipeline.Graph

section

variable [Regex.Engine]

/-! ## §1. What should be reported. -/

/-- What a list of problems says of the needs of a job, if all of it is reported. -/
structure Reported (refName : String) (stages : List StageDefinition) (maxNeeds : UInt64)
    (job : JobDefinition) (problems : List Problem) : Prop where
  tooMany : maxNeeds.toNat < job.needs.length →
    .tooManyNeeds job.name maxNeeds.toNat job.needs.length ∈ problems
  undefined : ∀ n ∈ job.needs, (∀ k ∈ declared (keptStages stages), k.name ≠ n.job) →
    .undefinedNeed job.name n.job ∈ problems
  excluded : ∀ n ∈ job.needs, n.optional = false →
    (∃ k, firstDeclared stages n.job = some k ∧ Excluded refName k) →
      .excludedNeed job.name n.job ∈ problems

/-- A need that does not hold, although it has to. -/
inductive Unmet (refName : String) (stages : List StageDefinition) (n : Need) : Prop where
  /-- No kept stage declares a job of the name. -/
  | undefined (hnone : ∀ k ∈ declared (keptStages stages), k.name ≠ n.job)
  /-- The job of the name is excluded, and the need is not optional. -/
  | excluded {k : JobDefinition} (hoptional : n.optional = false)
      (hfirst : firstDeclared stages n.job = some k) (hexcluded : Excluded refName k)

/-! ## §2. Whose needs a problem is about. -/

/-- The job whose needs a problem is about. -/
def Problem.needing? : Problem → Option String
  | .tooManyNeeds job _ _ => some job
  | .undefinedNeed job _ => some job
  | .excludedNeed job _ => some job
  | .duplicateStage _ => none
  | .stagePosition _ _ _ => none
  | .duplicateJob _ _ => none
  | .duplicateAcross _ _ _ => none
  | .rulePattern _ _ => none
  | .cycle _ => none

/-- A survey reports nothing of needs. -/
theorem Clash.needing? {items : List (StageDefinition × Nat)} {q : Problem} (h : Clash items q) :
    q.needing? = none := by
  cases h <;> rfl

section Needing

variable {refName : String} {stages : List StageDefinition} {maxNeeds : UInt64}
variable {job : JobDefinition}

/-- What is wrong with the needs of a job is about that job. -/
theorem NeedFault.needing? {q : Problem} (h : NeedFault refName stages maxNeeds job q) :
    q.needing? = some job.name := by
  cases h <;> rfl

/-- No two kept jobs have one name. -/
theorem Kept.eq_of_name {job' : JobDefinition} (h : Kept refName stages job)
    (h' : Kept refName stages job') (hname : job'.name = job.name) : job' = job := by
  have hfirst := h'.first
  rw [hname, h.first] at hfirst
  exact (Option.some.inj hfirst).symm

/-- What a graph reports of the needs of a kept job is what is wrong with them. -/
theorem mem_problems_iff_needFault (h : Kept refName stages job) {q : Problem}
    (hq : q.needing? = some job.name) :
    q ∈ (Graph.of refName stages maxNeeds).problems ↔ NeedFault refName stages maxNeeds job q := by
  rw [mem_problems_iff]
  constructor
  · intro hmem
    rcases hmem with hsurvey | ⟨job', hkept, hfault⟩ | ⟨ring, -, rfl⟩
    · -- neither a clash nor a ring is about needs
      rw [(Survey.clash_of_mem_problems hsurvey).needing?] at hq
      cases hq
    · have hname : job'.name = job.name := Option.some.inj (hfault.needing?.symm.trans hq)
      rw [h.eq_of_name hkept hname] at hfault
      exact hfault
    · cases hq
  · intro hfault
    exact .inr (.inl ⟨job, h, hfault⟩)

/-! ## §3. What is reported. -/

/-- Up to the limit every need that does not hold is reported, and beyond it the number
of the needs is. -/
theorem reported_of_limit (h : Kept refName stages job)
    (hmet : maxNeeds.toNat < job.needs.length → ∀ n ∈ job.needs, ¬Unmet refName stages n) :
    Reported refName stages maxNeeds job (Graph.of refName stages maxNeeds).problems := by
  refine ⟨?_, ?_, ?_⟩
  · intro hlimit
    exact (mem_problems_iff_needFault h rfl).mpr (.tooMany hlimit)
  · intro n hn hnone
    -- beyond the limit the need would be met
    have hle : job.needs.length ≤ maxNeeds.toNat := by
      by_contra hover
      exact hmet (by omega) n hn (.undefined hnone)
    exact (mem_problems_iff_needFault h rfl).mpr (.undefined hle hn hnone)
  · intro n hn hoptional hexcluded
    obtain ⟨k, hfirst, hexcluded⟩ := hexcluded
    have hle : job.needs.length ≤ maxNeeds.toNat := by
      by_contra hover
      exact hmet (by omega) n hn (.excluded hoptional hfirst hexcluded)
    exact (mem_problems_iff_needFault h rfl).mpr (.excluded hle hn hoptional hfirst hexcluded)

/-- Beyond the limit nothing is reported of a single need. -/
theorem not_mem_problems_of_over (h : Kept refName stages job)
    (hlimit : maxNeeds.toNat < job.needs.length) (need : String) :
    .undefinedNeed job.name need ∉ (Graph.of refName stages maxNeeds).problems ∧
      .excludedNeed job.name need ∉ (Graph.of refName stages maxNeeds).problems := by
  constructor
  · intro hmem
    have hfault := (mem_problems_iff_needFault h rfl).mp hmem
    cases hfault with
    | undefined hle => omega
  · intro hmem
    have hfault := (mem_problems_iff_needFault h rfl).mp hmem
    cases hfault with
    | excluded hle => omega

/-- **What is wrong with the needs of a kept job is reported whatever else is wrong,
exactly unless the job has too many needs and one of them does not hold.**  That there are
too many is reported in any case. -/
theorem needs_reported_iff (h : Kept refName stages job) :
    (maxNeeds.toNat < job.needs.length →
      .tooManyNeeds job.name maxNeeds.toNat job.needs.length ∈
        (Graph.of refName stages maxNeeds).problems) ∧
    (Reported refName stages maxNeeds job (Graph.of refName stages maxNeeds).problems ↔
      (maxNeeds.toNat < job.needs.length → ∀ n ∈ job.needs, ¬Unmet refName stages n)) := by
  refine ⟨fun hlimit => (mem_problems_iff_needFault h rfl).mpr (.tooMany hlimit), ?_,
    reported_of_limit h⟩
  -- what a need that is not met asks for cannot be there beyond the limit
  intro hreported hlimit n hn hunmet
  obtain ⟨hundefined, hexcluded⟩ := not_mem_problems_of_over h hlimit n.job
  cases hunmet with
  | undefined hnone => exact hundefined (hreported.undefined n hn hnone)
  | excluded hoptional hfirst hrules =>
      exact hexcluded (hreported.excluded n hn hoptional ⟨_, hfirst, hrules⟩)

end Needing

end

/-- Within the limit, the one need of the sample is reported as undefined. -/
theorem needs_reported_sample :
    Kept "main" Definition.undefinedNeed.stages
        ((JobDefinition.named "rspec").needing (.of "setup")) ∧
      Reported "main" Definition.undefinedNeed.stages 1
        ((JobDefinition.named "rspec").needing (.of "setup"))
        (Graph.of "main" Definition.undefinedNeed.stages 1).problems := by
  have hkept : Kept "main" Definition.undefinedNeed.stages
      ((JobDefinition.named "rspec").needing (.of "setup")) :=
    ⟨by rfl, by unfold Excluded; decide⟩
  exact ⟨hkept, (needs_reported_iff hkept).2.mpr fun hlimit => absurd hlimit (by decide)⟩

/-- Under a limit of no needs at all, the same need is not reported as undefined. -/
theorem needs_hidden_by_limit :
    Kept "main" Definition.undefinedNeed.stages
        ((JobDefinition.named "rspec").needing (.of "setup")) ∧
      ¬Reported "main" Definition.undefinedNeed.stages 0
        ((JobDefinition.named "rspec").needing (.of "setup"))
        (Graph.of "main" Definition.undefinedNeed.stages 0).problems := by
  refine ⟨⟨by rfl, by unfold Excluded; decide⟩, ?_⟩
  intro h
  have hmem := h.undefined (.of "setup") (by decide) (by decide)
  exact absurd hmem (by decide +kernel)

end CiPipeline.Graph
