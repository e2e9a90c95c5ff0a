/-
  CiPipeline.Proofs.Graph.Reordering
  ──────────────────────────────────
  **Where every stage asks for a position, the order of declaration does not matter.**

  Nothing is wrong with the declarations of a definition when its stages are declared in
  another order, and every name stands for the same.  The graph is then made of the same
  stages, each on its own, and these have distinct positions: there is one order to put
  them in (`stages_of_perm`).  Main statement: `of_perm`.
-/
import CiPipeline.Proofs.Graph.Validity
import CiPipeline.Regex.Standard

namespace CiPipeline.Graph

/-! ## §1. Stages that ask for a position. -/

/-- Every stage asks for a position. -/
def Indexed (stages : List StageDefinition) : Prop := ∀ s ∈ stages, ∃ n, s.index = some n

theorem Indexed.perm {stages stages' : List StageDefinition} (h : Indexed stages)
    (hperm : stages.Perm stages') : Indexed stages' :=
  fun s hs => h s (hperm.mem_iff.mpr hs)

/-- A stage that asks for a position has it in whatever place it is declared. -/
theorem Indexed.position_eq {stages : List StageDefinition} (h : Indexed stages)
    {s : StageDefinition} (hs : s ∈ stages) (place : Nat) :
    Survey.position s place = Survey.position s 0 := by
  obtain ⟨n, hn⟩ := h s hs
  unfold Survey.position
  rw [hn]
  rfl

/-- What is made of a stage without a look at its place is made of the stage alone. -/
theorem map_zipIdx_of_placeless {β : Type} {f : StageDefinition × Nat → β}
    {stages : List StageDefinition} (h : ∀ s ∈ stages, ∀ place, f (s, place) = f (s, 0)) :
    stages.zipIdx.map f = stages.map fun s => f (s, 0) := by
  have hplaces : ∀ item ∈ stages.zipIdx, f item = f (item.1, 0) :=
    fun item hitem => h item.1 (List.fst_mem_of_mem_zipIdx hitem) item.2
  have hfst : stages.zipIdx.map Prod.fst = stages := List.zipIdx_map_fst 0 stages
  rw [List.map_congr_left hplaces]
  conv_rhs => rw [← hfst, List.map_map]
  rfl

theorem Indexed.positions_eq {stages : List StageDefinition} (h : Indexed stages) :
    positions stages = stages.map fun s => Survey.position s 0 :=
  map_zipIdx_of_placeless (f := fun item => Survey.position item.1 item.2)
    fun _ hs place => h.position_eq hs place

/-! ## §2. Definitions in another order. -/

section Order

variable {refName : String} {stages stages' : List StageDefinition} {maxNeeds : UInt64}

theorem declared_perm (hperm : stages.Perm stages') :
    (declared stages).Perm (declared stages') :=
  hperm.flatMap_right _

variable [Regex.Engine]

/-- Names, positions and rules are in order in whatever order the stages are declared, as long
as each of them asks for a position. -/
theorem wellDeclared_of_perm (h : Survey.WellDeclared refName stages.zipIdx)
    (hperm : stages.Perm stages') (hindexed : Indexed stages) :
    Survey.WellDeclared refName stages'.zipIdx := by
  obtain ⟨hstages, hpositions, hjobs, hrules⟩ := (wellDeclared_iff refName stages).mp h
  have hdeclared := declared_perm hperm
  rw [hindexed.positions_eq] at hpositions
  refine (wellDeclared_iff refName stages').mpr ⟨(hperm.map _).nodup_iff.mp hstages, ?_,
    (hdeclared.map _).nodup_iff.mp hjobs, fun j hj => hrules j (hdeclared.mem_iff.mpr hj)⟩
  rw [(hindexed.perm hperm).positions_eq]
  exact (hperm.map _).nodup_iff.mp hpositions

/-- Every name stands for the same, whatever the order of declaration. -/
theorem standing_of_perm (h : Survey.WellDeclared refName stages.zipIdx)
    (h' : Survey.WellDeclared refName stages'.zipIdx) (hperm : stages.Perm stages') :
    (Survey.of refName stages').standing = (Survey.of refName stages).standing := by
  have hdeclared := declared_perm hperm
  funext name
  -- what a name stands for is settled by the jobs that are declared, in no order
  cases hstanding : (Survey.of refName stages).standing name with
  | undeclared =>
      refine (clean_undeclared_iff h' name).mpr fun hdeclared' => ?_
      obtain ⟨k, hk, hname⟩ := hdeclared'
      exact (clean_undeclared_iff h name).mp hstanding ⟨k, hdeclared.mem_iff.mpr hk, hname⟩
  | excluded =>
      obtain ⟨k, hk, hexcluded⟩ := (clean_excluded_iff h name).mp hstanding
      exact (clean_excluded_iff h' name).mpr ⟨k, hdeclared.mem_iff.mp hk, hexcluded⟩
  | present =>
      obtain ⟨k, hk, hincluded⟩ := (clean_present_iff h name).mp hstanding
      exact (clean_present_iff h' name).mpr ⟨k, hdeclared.mem_iff.mp hk, hincluded⟩

/-- The same jobs take part, whatever the order of declaration. -/
theorem mem_jobs_of_perm (h : Survey.WellDeclared refName stages.zipIdx)
    (h' : Survey.WellDeclared refName stages'.zipIdx) (hperm : stages.Perm stages')
    {p : PlacedJob} (hp : p ∈ (Survey.of refName stages').jobs) :
    p ∈ (Survey.of refName stages).jobs := by
  rw [clean_jobs h'] at hp
  rw [clean_jobs h]
  exact ((declared_perm hperm).map _).mem_iff.mpr hp

/-! ## §3. Graphs. -/

omit [Regex.Engine] in
/-- A stage is drafted in the same way wherever every name stands for the same. -/
theorem draftStage_congr {survey survey' : Survey} (h : survey'.standing = survey.standing)
    (maxNeeds : UInt64) : draftStage survey' maxNeeds = draftStage survey maxNeeds := by
  funext p
  unfold draftStage draftJobs
  rw [h]

/-- The stages that a survey places are those of the definition, each in its position. -/
theorem placed_of_indexed (h : Survey.WellDeclared refName stages.zipIdx)
    (hindexed : Indexed stages) :
    (Survey.of refName stages).placed = stages.map fun s => PlacedStage.of refName (s, 0) := by
  rw [Survey.of_eq_whole h]
  refine map_zipIdx_of_placeless fun s hs place => ?_
  unfold PlacedStage.of
  dsimp only
  rw [hindexed.position_eq hs]

omit [Regex.Engine] in
/-- Stages of distinct positions can be put in order in one way only. -/
theorem sortStages_of_perm {drafts drafts' : List Stage} (hperm : drafts.Perm drafts')
    (h : (drafts.map (·.position)).Nodup) : sortStages drafts' = sortStages drafts := by
  have h' : (drafts'.map (·.position)).Nodup := (hperm.map _).nodup_iff.mp h
  have hsorted : (sortStages drafts').Perm (sortStages drafts) :=
    (sortStages_perm drafts').trans (hperm.symm.trans (sortStages_perm drafts).symm)
  refine hsorted.eq_of_pairwise ?_ (sortStages_increasing h') (sortStages_increasing h)
  intro s t _ _ hst hts
  exact absurd hst (UInt64.lt_asymm hts)

theorem stages_of_perm (h : Survey.WellDeclared refName stages.zipIdx)
    (h' : Survey.WellDeclared refName stages'.zipIdx) (hperm : stages.Perm stages')
    (hindexed : Indexed stages) :
    (Graph.of refName stages' maxNeeds).stages = (Graph.of refName stages maxNeeds).stages := by
  have hplaced : (Survey.of refName stages).placed.Perm (Survey.of refName stages').placed := by
    rw [placed_of_indexed h hindexed, placed_of_indexed h' (hindexed.perm hperm)]
    exact hperm.map _
  rw [of_stages, of_stages, draftStage_congr (standing_of_perm h h' hperm)]
  refine sortStages_of_perm ((hplaced.map _).filter _) (drafts_nodup ?_)
  exact (Survey.sound_of refName stages).positions_nodup

/-- A valid graph stays valid when the stages are declared in another order. -/
theorem isValid_of_perm (hperm : stages.Perm stages') (hindexed : Indexed stages)
    (h : (Graph.of refName stages maxNeeds).isValid = true) :
    (Graph.of refName stages' maxNeeds).isValid = true := by
  obtain ⟨hproblems, hneeds, hacyclic⟩ := (of_isValid_iff _ _ _).mp h
  have hdeclared := (Survey.problems_of_eq_nil_iff refName stages).mp hproblems
  have hdeclared' := wellDeclared_of_perm hdeclared hperm hindexed
  refine (of_isValid_iff _ _ _).mpr
    ⟨(Survey.problems_of_eq_nil_iff refName stages').mpr hdeclared', ?_, ?_⟩
  · intro p hp hverdict
    rw [standing_of_perm hdeclared hdeclared' hperm]
    exact hneeds p (mem_jobs_of_perm hdeclared hdeclared' hperm hp) hverdict
  · -- what needs what is read off the stages, and these are the same
    unfold Needs jobs at hacyclic ⊢
    rw [stages_of_perm hdeclared hdeclared' hperm hindexed]
    exact hacyclic

/-- **Where every stage asks for a position, a definition has a valid graph in every order
of its stages or in none, and a valid one is the same in every order.** -/
theorem of_perm (hperm : stages.Perm stages') (hindexed : Indexed stages) :
    (Graph.of refName stages' maxNeeds).isValid = (Graph.of refName stages maxNeeds).isValid ∧
      ((Graph.of refName stages maxNeeds).isValid = true →
        Graph.of refName stages' maxNeeds = Graph.of refName stages maxNeeds) := by
  have hvalid : (Graph.of refName stages' maxNeeds).isValid = true ↔
      (Graph.of refName stages maxNeeds).isValid = true :=
    ⟨isValid_of_perm hperm.symm (hindexed.perm hperm), isValid_of_perm hperm hindexed⟩
  refine ⟨Bool.eq_iff_iff.mpr hvalid, fun h => ?_⟩
  have h' := hvalid.mpr h
  have hdeclared :=
    (Survey.problems_of_eq_nil_iff refName stages).mp ((of_isValid_iff _ _ _).mp h).1
  have hdeclared' := wellDeclared_of_perm hdeclared hperm hindexed
  calc Graph.of refName stages' maxNeeds
      = ⟨(Graph.of refName stages' maxNeeds).stages, []⟩ := eq_of_isValid h'
    _ = ⟨(Graph.of refName stages maxNeeds).stages, []⟩ := by
        rw [stages_of_perm hdeclared hdeclared' hperm hindexed]
    _ = Graph.of refName stages maxNeeds := (eq_of_isValid h).symm

end Order

/-- Stages that ask for their positions, the last one first. -/
def indexedSample : List StageDefinition :=
  [⟨"deploy", some 30, [(JobDefinition.named "ship").needing (.of "rspec")]⟩,
   ⟨"build", some 10, [.named "compile"]⟩,
   ⟨"test", some 20, [(JobDefinition.named "rspec").needing (.of "compile"), .named "lint"]⟩]

/-- Declared from the last one to the first, the stages of the sample have the same graph. -/
theorem of_perm_sample :
    Indexed indexedSample ∧ (Graph.of "main" indexedSample 50).isValid = true ∧
      ((Graph.of "main" indexedSample 50).stages.map (·.name)) = ["build", "test", "deploy"] ∧
      Graph.of "main" indexedSample.reverse 50 = Graph.of "main" indexedSample 50 := by
  have hindexed : Indexed indexedSample := by
    intro s hs
    simp only [indexedSample, List.mem_cons, List.not_mem_nil, or_false] at hs
    rcases hs with rfl | rfl | rfl
    · exact ⟨30, rfl⟩
    · exact ⟨10, rfl⟩
    · exact ⟨20, rfl⟩
  have hvalid : (Graph.of "main" indexedSample 50).isValid = true := by decide +kernel
  exact ⟨hindexed, hvalid, by decide +kernel,
    (of_perm (List.reverse_perm indexedSample).symm hindexed).2 hvalid⟩

end CiPipeline.Graph
