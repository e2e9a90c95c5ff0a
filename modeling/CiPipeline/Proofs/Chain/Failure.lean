/-
  CiPipeline.Proofs.Chain.Failure
  ───────────────────────────────
  **How errors, status and reason of a pipeline go together.**

  The links record an error and fail the pipeline in one go.  A seed block may do the one
  without the other: an error by itself halts the chain and leaves the pipeline new, so
  errors alone do not tell a failed pipeline.  A run leaves the marks of the block
  alone, or a link has rejected the pipeline, or the pipeline has been made
  (`Closing`); from that all is read off (`standard_run_accounted`).
-/
import CiPipeline.Proofs.Chain.Finality
import CiPipeline.Proofs.Chain.Invocation
import CiPipeline.Proofs.Creation.Block

namespace CiPipeline

open BlockAct (Adds Drops)

/-! ## §1. The seed block in a run. -/

namespace Creation

/-- The seed block of a creation, if there is one, does what a plan says. -/
def BlockFollows (c : Creation) (plan : Pipeline → List BlockAct) : Prop :=
  ∀ block, c.seedBlock = some block → block = .doing plan

/-- A creation has been given to its seed block on some pipelines, one at most, and nothing but
the block has decided on it. -/
structure Met (plan : Pipeline → List BlockAct) (c : Creation) (given : List Pipeline)
    (k : Creation) : Prop where
  blockRuns : k.blockRuns = c.blockRuns ++ given
  once : given.length ≤ 1
  marked : c.pipeline.Marked (given.flatMap plan) k.pipeline

variable {plan : Pipeline → List BlockAct} {memo : Option GraphMemo} {c k : Creation}
  {s t : Stores} {d : Definition} {g : Graph}

/-- A creation that has not come to its seed block is undecided. -/
theorem met_of_undecided (hruns : k.blockRuns = c.blockRuns)
    (hverdict : c.pipeline.SameVerdict k.pipeline) : Met plan c [] k :=
  ⟨by rw [hruns, List.append_nil], Nat.zero_le 1, hverdict.marked⟩

/-- Enrolling decides nothing. -/
theorem enrolled_verdict (c : Creation) (s : Stores) :
    c.pipeline.SameVerdict (c.enrolled s).pipeline := by
  have hprotected := (protect_undecided { c with pipeline := (c.registering s).pipeline } s).2.1
  exact (c.registering_undecided s).verdict.trans hprotected.verdict

/-- Before its seed block runs, the enrolled creation is undecided. -/
theorem enrolled_met (c : Creation) (s : Stores) : Met plan c [] (c.enrolled s) :=
  met_of_undecided (c.enrolled_blockRuns s) (c.enrolled_verdict s)

/-- The seed block marks the enrolled creation. -/
theorem runBlock_met (hplan : c.BlockFollows plan) (s : Stores) :
    ∃ given, Met plan c given (c.enrolled s).runBlock.1 := by
  cases hblock : c.seedBlock with
  | none =>
      -- there is nothing to run, and the plan is not asked
      have hnone : (c.enrolled s).seedBlock = none :=
        (c.precedes_enrolled s).seedBlock.trans hblock
      refine ⟨[], ?_⟩
      unfold runBlock
      rw [hnone]
      exact c.enrolled_met s
  | some block =>
      obtain ⟨hruns, -, hpipeline⟩ := enrolled_runBlock hblock s
      refine ⟨[(c.enrolled s).pipeline], hruns, Nat.le_refl 1, ?_⟩
      rw [hpipeline, hplan block hblock, List.flatMap_singleton]
      exact (c.enrolled_verdict s).marked.trans (Pipeline.marked_foldl _ _)

/-- So does the block at its first chance, if it takes it. -/
theorem blockAtOnce_met (hplan : c.BlockFollows plan) (s : Stores) :
    ∃ given, Met plan c given (c.enrolled s).blockAtOnce := by
  by_cases hdeferred : (c.enrolled s).features.seedBlockAfterWorkflowRules = true
  · rw [blockAtOnce_of_deferred hdeferred]
    exact ⟨[], c.enrolled_met s⟩
  · rw [blockAtOnce_of_not_deferred hdeferred]
    exact runBlock_met hplan s

/-! ## §2. Seeded creations. -/

variable [Regex.Engine]

/-- The graph leaves the marks of the seed block, or it has the pipeline rejected. -/
theorem Seeded.met_or_rejected (h : Seeded memo c s d g k t) (hplan : c.BlockFollows plan) :
    ∃ given k₀, Met plan c given k₀ ∧
      (k = { k₀ with graph := some g } ∨ ∃ message, k = k₀.reject message .configError) := by
  obtain ⟨given, hmet⟩ := blockAtOnce_met hplan s
  rw [← (prepare_enrolled h.prepared).2] at hmet
  refine ⟨given, (c.prepare s).creation, hmet, ?_⟩
  rw [h.creation]
  obtain ⟨-, hattach⟩ | ⟨-, message, hattach⟩ := attach_cases (c.prepare s).creation g
  · exact .inl hattach
  · exact .inr ⟨message, hattach⟩

/-- Where the seeded creation has no errors, the graph has left the marks alone. -/
theorem Seeded.met (h : Seeded memo c s d g k t) (hplan : c.BlockFollows plan)
    (hclean : k.pipeline.hasErrors = false) : ∃ given, Met plan c given k := by
  obtain ⟨given, hmet⟩ := blockAtOnce_met hplan s
  rw [h.eq_enrolled hclean]
  exact ⟨given, hmet.blockRuns, hmet.once, hmet.marked⟩

/-- A creation that is let pass has met its seed block when the third link is done.  If it has
failed before, its block has dropped it. -/
theorem Passed.met (h : Passed memo c s d g k t) (hplan : c.BlockFollows plan)
    (hnew : c.pipeline.status = .new) :
    ∃ given, Met plan c given k.blockDeferred ∧
      (k.pipeline.status = .failed → Drops (given.flatMap plan)) := by
  obtain ⟨given, hmet⟩ := runBlock_met hplan s
  rw [h.toSeeded.eq_enrolled h.clean, blockDeferred_blockAtOnce]
  refine ⟨given, ⟨hmet.blockRuns, hmet.once, hmet.marked⟩, ?_⟩
  show (c.enrolled s).blockAtOnce.pipeline.status = .failed → _
  by_cases hdeferred : (c.enrolled s).features.seedBlockAfterWorkflowRules = true
  · -- nothing has decided on it so far
    rw [blockAtOnce_of_deferred hdeferred, (c.enrolled_verdict s).status, hnew]
    exact nofun
  · rw [blockAtOnce_of_not_deferred hdeferred]
    exact (hmet.marked.failed_iff hnew).mp

theorem Seeded.repository (h : Seeded memo c s d g k t) : t.repository = s.repository := by
  rw [h.stores]
  exact c.prepare_repository s

end Creation

open Creation (Met Seeded Passed Ready BlockFollows)

/-! ## §3. The turns of a complete run. -/

/-- A link that goes on leaves the turn to those behind it. -/
theorem Chain.turns_of_goesOn {L : Type} [Link L] {link link' : L} {links : List L}
    {c d : Creation} {s t : Stores} {notes : List Note}
    (h : Link.work link c s = ⟨.ok (), link', d, t, notes⟩) (hhalts : Link.halts link' d = false) :
    turns (link :: links) c s = ⟨link, c, s⟩ :: turns links d t := by
  rw [turns, h]
  dsimp only
  rw [hhalts, if_neg Bool.false_ne_true]

section

variable [Regex.Engine]

/-- A ready creation has come through the first three turns. -/
theorem turns_of_ready {memo : Option GraphMemo} {c k : Creation} {s t : Stores} {d : Definition}
    {g : Graph} (h : Ready memo c s d g k t) :
    Chain.turns (Chain.standardWith memo).links c s =
      [⟨.seed memo, c, s⟩, ⟨.workflowRules, k, t⟩, ⟨.seedBlock, k, t⟩] ++
        Chain.turns [.create] k.blockDeferred t := by
  obtain ⟨seedNotes, hseed⟩ := work_seed h.toSeeded
  obtain ⟨rulesNotes, hrules⟩ := work_rules h.definition_eq t
  obtain ⟨blockNotes, hblock⟩ := work_block k t
  rw [h.verdict] at hrules
  show Chain.turns [CreationLink.seed memo, .workflowRules, .seedBlock, .create] c s = _
  rw [Chain.turns_of_goesOn hseed h.clean, Chain.turns_of_goesOn hrules h.clean,
    Chain.turns_of_goesOn hblock h.cleanStill]
  rfl

/-- If a turn of a complete run leaves a failed pipeline behind, then the pipeline has failed when
it is seeded, or when its deferred block is done. -/
theorem failed_turn_of_complete {memo : Option GraphMemo} {c k : Creation} {s t : Stores}
    {d : Definition} {g : Graph} (h : Ready memo c s d g k t) (hsize : g.size ≠ 0)
    (hhealthy : t.faults.repository = none) {turn : Turn CreationLink}
    (hturn : turn ∈ Chain.turns (Chain.standardWith memo).links c s)
    (hfailed : turn.after = .failed) :
    k.pipeline.status = .failed ∨ k.blockDeferred.pipeline.status = .failed := by
  obtain ⟨seedNotes, hseed⟩ := work_seed h.toSeeded
  obtain ⟨createNotes, hcreate⟩ := work_create_of_healthy h.graph_eq hsize hhealthy
  rw [turns_of_ready h, Chain.turns_of_goesOn hcreate h.cleanStill] at hturn
  simp only [Chain.turns, List.mem_append, List.mem_cons, List.not_mem_nil, or_false] at hturn
  obtain (rfl | rfl | rfl) | rfl := hturn
  · unfold Turn.after at hfailed
    rw [hseed] at hfailed
    exact .inl hfailed
  · rw [Turn.after_rules h.definition_eq, h.verdict] at hfailed
    exact .inl hfailed
  · rw [Turn.after_block] at hfailed
    exact .inr hfailed
  · -- the last link has made the pipeline
    rw [Turn.after_create h.graph_eq, if_neg hsize, if_pos hhealthy] at hfailed
    cases hfailed

/-! ## §4. What a run leaves behind. -/

/-- What a run has made of a pipeline that it has met with its seed block: it has left it with
the marks of the block, or rejected it, or made it. -/
inductive Closing (plan : Pipeline → List BlockAct) (memo : Option GraphMemo) (c : Creation)
    (s : Stores) (given : List Pipeline) (r : Run CreationLink) : Prop where
  | left (met : Met plan c given r.creation)
      (uncommitted : r.stores.repository.pipelines = s.repository.pipelines)
  | rejected {k : Creation} {message : String} {reason : FailureReason}
      (met : Met plan c given k) (creation : r.creation = k.reject message reason)
      (uncommitted : r.stores.repository.pipelines = s.repository.pipelines)
  | made {k : Creation} {id : Int64} (met : Met plan c given k) (clean : k.pipeline.errors = [])
      (creation : r.creation = k.created id)
      (dropped : ∀ turn ∈ Chain.turns (Chain.standardWith memo).links c s,
        turn.after = .failed → Drops (given.flatMap plan))

variable {plan : Pipeline → List BlockAct} {memo : Option GraphMemo} {c : Creation} {s : Stores}
  {r : Run CreationLink}

/-- **Every run of the standard chain closes in one of the three ways.** -/
theorem Ending.closing (h : Ending memo c s r) (hplan : c.BlockFollows plan)
    (hnew : c.pipeline.status = .new) : ∃ given, Closing plan memo c s given r := by
  cases h with
  | undefined trace definition =>
      exact ⟨[], .left (Creation.met_of_undecided rfl (.refl _)) rfl⟩
  | unprepared trace definition refused =>
      have hruns := (Creation.prepare_unenrolled refused).2
      have hverdict := Creation.prepare_verdict_of_error refused
      exact ⟨[], .left (Creation.met_of_undecided hruns hverdict)
        (congrArg (·.pipelines) (c.prepare_repository s))⟩
  | @haltedAtSeed trace d g k t seeded mistaken =>
      have huncommitted := congrArg (·.pipelines) seeded.repository
      obtain ⟨given, k₀, hmet, rfl | ⟨message, rfl⟩⟩ := seeded.met_or_rejected hplan
      · exact ⟨given, .left ⟨hmet.blockRuns, hmet.once, hmet.marked⟩ huncommitted⟩
      · exact ⟨given, .rejected hmet rfl huncommitted⟩
  | @haltedAtRules trace d g k t message reason seeded clean verdict =>
      obtain ⟨given, hmet⟩ := seeded.met hplan clean
      exact ⟨given, .rejected hmet rfl (congrArg (·.pipelines) seeded.repository)⟩
  | @haltedAtBlock trace d g k t passed mistaken =>
      obtain ⟨given, hmet, -⟩ := passed.met hplan hnew
      exact ⟨given, .left hmet (congrArg (·.pipelines) passed.toSeeded.repository)⟩
  | @haltedAtCreate trace d g k t ready empty =>
      obtain ⟨given, hmet, -⟩ := ready.toPassed.met hplan hnew
      exact ⟨given, .rejected hmet rfl (congrArg (·.pipelines) ready.toSeeded.repository)⟩
  | @unpersisted trace d g k t fault ready nonempty faulty =>
      obtain ⟨given, hmet, -⟩ := ready.toPassed.met hplan hnew
      exact ⟨given, .left hmet (congrArg (·.pipelines) ready.toSeeded.repository)⟩
  | @complete trace d g k t ready nonempty healthy =>
      obtain ⟨given, hmet, hseeded⟩ := ready.toPassed.met hplan hnew
      refine ⟨given, .made hmet ((Pipeline.hasErrors_eq_false_iff _).mp ready.cleanStill) rfl ?_⟩
      intro turn hturn hfailed
      -- whoever has failed the pipeline by then, it was the block
      rcases failed_turn_of_complete ready nonempty healthy hturn hfailed with hstatus | hstatus
      · exact hseeded hstatus
      · exact (hmet.marked.failed_iff hnew).mp hstatus

/-- How the errors, the status and the reason of a pipeline go together after a run that has given
it to its seed block on some pipelines. -/
structure Run.Accounted (plan : Pipeline → List BlockAct) (memo : Option GraphMemo) (c : Creation)
    (s : Stores) (r : Run CreationLink) (given : List Pipeline) : Prop where
  /-- These are the pipelines that the block is given in the run, one at most. -/
  blockRuns : r.creation.blockRuns = c.blockRuns ++ given ∧ given.length ≤ 1
  /-- A pipeline that has failed has a reason. -/
  reasoned : r.creation.pipeline.status = .failed → r.creation.pipeline.failureReason ≠ none
  /-- A pipeline with errors is not committed. -/
  uncommitted : r.creation.pipeline.hasErrors = true →
    r.stores.repository.pipelines = s.repository.pipelines
  /-- A pipeline has errors exactly if it has failed, or if it is new still and the block has
  added errors without dropping it. -/
  agrees : (Drops (given.flatMap plan) → Adds (given.flatMap plan)) →
    (r.creation.pipeline.hasErrors = true ↔ r.creation.pipeline.status = .failed ∨
      r.creation.pipeline.status = .new ∧ Adds (given.flatMap plan) ∧ ¬Drops (given.flatMap plan))
  /-- A pipeline that is made has no reason that it has not had before. -/
  made : (Drops (given.flatMap plan) → Adds (given.flatMap plan)) →
    r.creation.pipeline.status = .created →
      r.creation.pipeline.failureReason = c.pipeline.failureReason
  /-- A pipeline that the block or any link drops on the way is not committed. -/
  dropped : (Drops (given.flatMap plan) → Adds (given.flatMap plan)) →
    (Drops (given.flatMap plan) ∨
      ∃ turn ∈ Chain.turns (Chain.standardWith memo).links c s, turn.after = .failed) →
        r.stores.repository.pipelines = s.repository.pipelines

namespace Closing

variable {given : List Pipeline}

/-- What is left with the marks of the block. -/
theorem accounted_of_left (hnew : c.pipeline.status = .new) (hclean : c.pipeline.errors = [])
    (met : Met plan c given r.creation)
    (uncommitted : r.stores.repository.pipelines = s.repository.pipelines) :
    Run.Accounted plan memo c s r given := by
  have hfailed := met.marked.failed_iff hnew
  have herrors : r.creation.pipeline.hasErrors = true ↔ Adds (given.flatMap plan) := by
    rw [← met.marked.errors_ne_nil_iff hclean, ne_eq, ← Pipeline.hasErrors_eq_false_iff,
      Bool.not_eq_false]
  refine ⟨⟨met.blockRuns, met.once⟩, ?_, fun _ => uncommitted, ?_, ?_, fun _ _ => uncommitted⟩
  · intro hstatus
    exact (met.marked.dropped (hfailed.mp hstatus)).2
  · intro hexplained
    rw [herrors, hfailed]
    constructor
    · intro hadds
      by_cases hdrops : Drops (given.flatMap plan)
      · exact .inl hdrops
      · exact .inr ⟨(met.marked.kept hdrops).1.trans hnew, hadds, hdrops⟩
    · rintro (hdrops | ⟨-, hadds, -⟩)
      · exact hexplained hdrops
      · exact hadds
  · -- only the last link makes a pipeline, and it has not come to that
    intro _ hstatus
    by_cases hdrops : Drops (given.flatMap plan)
    · rw [(met.marked.dropped hdrops).1] at hstatus
      cases hstatus
    · exact (met.marked.kept hdrops).2

/-- **What is known of the errors, the status and the reason, however the run has closed.** -/
theorem accounted (h : Closing plan memo c s given r) (hnew : c.pipeline.status = .new)
    (hclean : c.pipeline.errors = []) : Run.Accounted plan memo c s r given := by
  cases h with
  | left met uncommitted => exact accounted_of_left hnew hclean met uncommitted
  | @rejected k message reason met creation uncommitted =>
      obtain ⟨hreason, hstatus⟩ := Pipeline.failed_reject k.pipeline message reason
      -- the links reject in one go: an error, a reason and the status
      have hfailed : r.creation.pipeline.status = .failed := by
        rw [creation]
        exact hstatus
      have herrors : r.creation.pipeline.hasErrors = true := by
        rw [creation]
        exact Creation.hasErrors_reject k message reason
      refine ⟨?_, ?_, fun _ => uncommitted, ?_, ?_, fun _ _ => uncommitted⟩
      · rw [creation]
        exact ⟨met.blockRuns, met.once⟩
      · intro _
        rw [creation]
        show (k.pipeline.reject message reason).failureReason ≠ none
        rw [hreason]
        exact nofun
      · intro _
        exact iff_of_true herrors (.inl hfailed)
      · intro _ hstatus
        rw [hfailed] at hstatus
        cases hstatus
  | @made k id met clean creation dropped =>
      -- without errors the block has added none, so one that explains its drops has dropped nothing
      have hadds : ¬Adds (given.flatMap plan) := by
        intro hadds
        exact (met.marked.errors_ne_nil_iff hclean).mpr hadds clean
      have hclean' : r.creation.pipeline.hasErrors = false := by
        rw [creation]
        exact (Pipeline.hasErrors_eq_false_iff _).mpr clean
      have hcreated : r.creation.pipeline.status = .created := by
        rw [creation]
        rfl
      refine ⟨?_, ?_, ?_, ?_, ?_, ?_⟩
      · rw [creation]
        exact ⟨met.blockRuns, met.once⟩
      · intro hstatus
        rw [hcreated] at hstatus
        cases hstatus
      · intro hmistaken
        rw [hclean'] at hmistaken
        cases hmistaken
      · intro _
        rw [hclean', hcreated]
        simp [hadds]
      · intro hexplained _
        rw [creation]
        exact (met.marked.kept fun hdrops => hadds (hexplained hdrops)).2
      · rintro hexplained (hdrops | ⟨turn, hturn, hfailed⟩)
        · exact absurd (hexplained hdrops) hadds
        · exact absurd (hexplained (dropped turn hturn hfailed)) hadds

end Closing

/-- **After a run of the standard chain on a new pipeline without errors, errors, status and reason
go together**: for every plan of the seed block and whatever the first link has kept. -/
theorem standard_run_accounted (hplan : c.BlockFollows plan) (hnew : c.pipeline.status = .new)
    (hclean : c.pipeline.errors = []) (memo : Option GraphMemo) (s : Stores) :
    ∃ given, Run.Accounted plan memo c s ((Chain.standardWith memo).run c s) given := by
  obtain ⟨given, hclosing⟩ := (run_ending memo c s).closing hplan hnew
  exact ⟨given, hclosing.accounted hnew hclean⟩

end

/-- The sample with a seed block that adds an error and leaves it at that. -/
def Creation.mistaken : Creation :=
  Creation.sample.withSeedBlock (.doing fun _ => [.addError "broken"])

theorem Creation.mistaken_blockFollows :
    Creation.mistaken.BlockFollows fun _ => [.addError "broken"] := by
  intro block hblock
  cases hblock
  rfl

/-- The sample halts with an error and is new still. -/
theorem standard_run_accounted_sample :
    Creation.mistaken.BlockFollows (fun _ => [.addError "broken"]) ∧
      Creation.mistaken.pipeline.status = .new ∧ Creation.mistaken.pipeline.errors = [] ∧
      ∃ given, Run.Accounted (fun _ => [.addError "broken"]) none .mistaken .empty
        (Chain.standard.run .mistaken .empty) given :=
  ⟨Creation.mistaken_blockFollows, rfl, rfl,
    standard_run_accounted Creation.mistaken_blockFollows rfl rfl none .empty⟩

/-- Errors do not tell a failed pipeline. -/
theorem standard_run_mistaken_not_failed :
    Creation.mistaken.BlockFollows (fun _ => [.addError "broken"]) ∧
      Creation.mistaken.pipeline.status = .new ∧ Creation.mistaken.pipeline.errors = [] ∧
      ¬((Chain.standard.run .mistaken .empty).creation.pipeline.hasErrors = true ↔
        (Chain.standard.run .mistaken .empty).creation.pipeline.status = .failed) :=
  ⟨Creation.mistaken_blockFollows, rfl, rfl, by decide +kernel⟩

end CiPipeline
