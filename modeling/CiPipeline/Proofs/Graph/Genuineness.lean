/-
  CiPipeline.Proofs.Graph.Genuineness
  ───────────────────────────────────
  **Which problems are true of a definition.**

  What a problem says is to hold of the definition as it is written (`Genuine`), not only
  of what has been kept of it.  So it does for every kind of problem but one: a job that
  only a stage declares that has been passed over is reported as not declared at
  all.  All problems are genuine exactly if no job within the limit needs such a
  job (`problems_genuine_iff`).
-/
import CiPipeline.Proofs.Graph.Declarations
import CiPipeline.Regex.Standard

namespace CiPipeline.Graph

/-! ## §1. What a problem says. -/

/-- A declared job of a name needs one of another name. -/
def DeclaredNeed (stages : List StageDefinition) (a b : String) : Prop :=
  ∃ j ∈ declared stages, j.name = a ∧ ∃ n ∈ j.needs, n.job = b

section

variable [Regex.Engine]

/-- What a problem says is true of the stages as they are declared. -/
inductive Genuine (refName : String) (stages : List StageDefinition) (maxNeeds : UInt64) :
    Problem → Prop where
  /-- Two declarations clash, or a rule cannot be read. -/
  | clash {q : Problem} (hclash : Clash stages.zipIdx q) : Genuine refName stages maxNeeds q
  /-- A declared job has more needs than the limit. -/
  | tooManyNeeds {j : JobDefinition} (hj : j ∈ declared stages)
      (hlimit : maxNeeds.toNat < j.needs.length) :
      Genuine refName stages maxNeeds (.tooManyNeeds j.name maxNeeds.toNat j.needs.length)
  /-- A declared job needs one that no stage declares. -/
  | undefinedNeed {j : JobDefinition} {n : Need} (hj : j ∈ declared stages) (hn : n ∈ j.needs)
      (hnone : ∀ k ∈ declared stages, k.name ≠ n.job) :
      Genuine refName stages maxNeeds (.undefinedNeed j.name n.job)
  /-- A declared job needs one that is excluded, and the need is not optional. -/
  | excludedNeed {j k : JobDefinition} {n : Need} (hj : j ∈ declared stages) (hn : n ∈ j.needs)
      (hoptional : n.optional = false) (hk : k ∈ declared stages) (hname : k.name = n.job)
      (hexcluded : Excluded refName k) :
      Genuine refName stages maxNeeds (.excludedNeed j.name n.job)
  /-- Declared needs lead from a job back to it. -/
  | cycle {first : String} {between : List String}
      (hchain : (first :: between ++ [first]).IsChain (DeclaredNeed stages)) :
      Genuine refName stages maxNeeds (.cycle (first :: between ++ [first]))

/-- A name that jobs have only in stages that are passed over. -/
def PassedOver (stages : List StageDefinition) (name : String) : Prop :=
  (∃ k ∈ declared stages, k.name = name) ∧ ∀ k ∈ declared (keptStages stages), k.name ≠ name

/-- A kept job, with no more needs than the limit, needs a job that has been passed
over. -/
def NeedsPassedOver (refName : String) (stages : List StageDefinition) (maxNeeds : UInt64)
    (job : JobDefinition) (n : Need) : Prop :=
  Kept refName stages job ∧ job.needs.length ≤ maxNeeds.toNat ∧ n ∈ job.needs ∧
    PassedOver stages n.job

/-! ## §2. Rings. -/

section Problems

variable {refName : String} {stages : List StageDefinition} {maxNeeds : UInt64}

/-- What the jobs of a graph need has been declared. -/
theorem declaredNeed_of_needs {a b : String}
    (h : (Graph.of refName stages maxNeeds).Needs a b) : DeclaredNeed stages a b := by
  obtain ⟨p, hp, -, hname, -, hneed, -⟩ := (of_needs_iff refName stages maxNeeds a b).mp h
  obtain ⟨job, hfirst, rfl⟩ := Survey.mem_of_jobs_iff.mp hp
  exact ⟨job, mem_declared_of_first hfirst, hname, hneed⟩

/-- A ring that is reported is one of declared needs. -/
theorem genuine_of_ring {ring : List String}
    (h : ring ∈ (digraph (Graph.of refName stages maxNeeds).stages).cycles) :
    Genuine refName stages maxNeeds (.cycle ring) := by
  -- the search runs along edges of the digraph, and each of them is a need of some job
  obtain ⟨first, between, rfl, -, hchain⟩ := Digraph.isRing_of_mem_cycles _ h
  refine .cycle (hchain.imp ?_)
  intro a b hedge
  exact declaredNeed_of_needs
    (((of_wellShaped refName stages maxNeeds).edge_digraph_iff a b).mp hedge)

/-! ## §3. Needs. -/

/-- What is wrong with the needs of a kept job is true of the definition, or the job needs one
that has been passed over. -/
theorem genuine_of_needFault {job : JobDefinition} {q : Problem} (hkept : Kept refName stages job)
    (h : NeedFault refName stages maxNeeds job q) :
    Genuine refName stages maxNeeds q ∨
      ∃ n, NeedsPassedOver refName stages maxNeeds job n ∧ q = .undefinedNeed job.name n.job := by
  have hjob : job ∈ declared stages := mem_declared_of_first hkept.first
  cases h with
  | tooMany hlimit => exact .inl (.tooManyNeeds hjob hlimit)
  | @undefined n hlimit hn hnone =>
      -- whether the name is declared in a stage that has not been kept makes the difference
      by_cases hdeclared : ∃ k ∈ declared stages, k.name = n.job
      · exact .inr ⟨n, ⟨hkept, hlimit, hn, hdeclared, hnone⟩, rfl⟩
      · refine .inl (.undefinedNeed hjob hn ?_)
        intro k hk hname
        exact hdeclared ⟨k, hk, hname⟩
  | excluded hlimit hn hoptional hfirst hexcluded =>
      exact .inl (.excludedNeed hjob hn hoptional (mem_declared_of_first hfirst)
        (mem_of_firstDeclared hfirst).2 hexcluded)

/-- A problem of a graph is true of the definition, unless it is a job that has been passed
over and is said not to be declared. -/
theorem genuine_of_mem_problems {q : Problem}
    (h : q ∈ (Graph.of refName stages maxNeeds).problems) :
    Genuine refName stages maxNeeds q ∨
      ∃ job n, NeedsPassedOver refName stages maxNeeds job n ∧
        q = .undefinedNeed job.name n.job := by
  rcases mem_problems_iff.mp h with hsurvey | ⟨job, hkept, hfault⟩ | ⟨ring, hring, rfl⟩
  · exact .inl (.clash (Survey.clash_of_mem_problems hsurvey))
  · rcases genuine_of_needFault hkept hfault with hgenuine | hpassed
    · exact .inl hgenuine
    · exact .inr ⟨job, hpassed⟩
  · exact .inl (genuine_of_ring hring)

/-- That a job is not declared is not true of one that has been passed over. -/
theorem not_genuine_of_passedOver {job name : String} (h : PassedOver stages name) :
    ¬Genuine refName stages maxNeeds (.undefinedNeed job name) := by
  obtain ⟨⟨k, hk, hname⟩, -⟩ := h
  intro hgenuine
  cases hgenuine with
  -- no clash is about needs
  | clash hclash => cases hclash
  | undefinedNeed hj hn hnone => exact hnone k hk hname

/-- What is reported of a need of a job that has been passed over. -/
theorem NeedsPassedOver.mem_problems {job : JobDefinition} {n : Need}
    (h : NeedsPassedOver refName stages maxNeeds job n) :
    .undefinedNeed job.name n.job ∈ (Graph.of refName stages maxNeeds).problems := by
  obtain ⟨hkept, hlimit, hn, -, hnone⟩ := h
  exact mem_problems_iff.mpr (.inr (.inl ⟨job, hkept, .undefined hlimit hn hnone⟩))

/-! ## §4. All problems. -/

variable (refName stages maxNeeds)

/-- **Every problem of a graph is true of the definition, but for a job that has been passed over
and is said not to be declared; so all are true exactly if no job within the limit needs
one that has been passed over.** -/
theorem problems_genuine_iff :
    (∀ q ∈ (Graph.of refName stages maxNeeds).problems,
      Genuine refName stages maxNeeds q ∨
        ∃ job n, NeedsPassedOver refName stages maxNeeds job n ∧
          q = .undefinedNeed job.name n.job) ∧
    ((∀ q ∈ (Graph.of refName stages maxNeeds).problems, Genuine refName stages maxNeeds q) ↔
      ¬∃ job n, NeedsPassedOver refName stages maxNeeds job n) := by
  refine ⟨fun q hq => genuine_of_mem_problems hq, ?_, ?_⟩
  · intro hall hneeds
    obtain ⟨job, n, hneeds⟩ := hneeds
    exact not_genuine_of_passedOver hneeds.2.2.2 (hall _ hneeds.mem_problems)
  · intro hnone q hq
    rcases genuine_of_mem_problems hq with hgenuine | ⟨job, n, hneeds, -⟩
    · exact hgenuine
    · exact absurd ⟨job, n, hneeds⟩ hnone

end Problems

end

/-- A stage is declared twice, and a job needs one of the second declaration. -/
def splitStage : List StageDefinition :=
  [.named "build" [.named "compile"],
   .named "build" [.named "lint"],
   .named "test" [(JobDefinition.named "rspec").needing (.of "lint")]]

/-- The job of the second declaration is there, and reported as not declared. -/
theorem problems_not_genuine :
    .undefinedNeed "rspec" "lint" ∈ (Graph.of "main" splitStage 50).problems ∧
      (∃ k ∈ declared splitStage, k.name = "lint") ∧
        ¬Genuine "main" splitStage 50 (.undefinedNeed "rspec" "lint") := by
  have hpassed : PassedOver splitStage "lint" :=
    ⟨⟨.named "lint", by simp [declared, splitStage, StageDefinition.named], rfl⟩, by decide⟩
  exact ⟨by decide +kernel, hpassed.1, not_genuine_of_passedOver hpassed⟩

end CiPipeline.Graph
