/-
  CiPipeline.Proofs.Chain.Decision
  ────────────────────────────────
  **What decides a run of the standard chain.**

  A creation and its stores settle in advance what a run comes to: without a
  definition it is aborted, and otherwise the first of seven causes decides, from
  the number of the pipeline to the commit of its record; if none of them applies
  the run is complete (`Creation.decision`).  A decision says what the run answers,
  and which mistake it leaves on the pipeline.

  Main statements: `Ending.decided`, `standard_run_decided`.
-/
import CiPipeline.Proofs.Chain.Atomicity

namespace CiPipeline

open Creation (Seeded Passed Ready rejection?)

/-! ## §1. Decisions. -/

/-- The names of the links up to one of them. -/
def Chain.namesUpTo {L : Type} [Link L] (chain : Chain L) (link : String) : List String :=
  chain.names.takeWhile (· ≠ link) ++ [link]

/-- What a run of the standard chain comes to. -/
inductive Decision where
  /-- An error aborts the run. -/
  | abort (e : CreationError)
  /-- The chain halts after a link, over a mistake that the link has recorded or over
  those that the pipeline has brought along. -/
  | halt (link : String) (mistake : Option (String × FailureReason))
  /-- All links are performed. -/
  | complete
  deriving DecidableEq, Repr

namespace Decision

/-- What a run answers that comes to this. -/
def result [Regex.Engine] : Decision → Except CreationError Outcome
  | .abort e => .error e
  | .halt link _ => .ok ⟨Chain.standard.namesUpTo link, some link⟩
  | .complete => .ok ⟨Chain.standard.names, none⟩

/-- The verdict on a pipeline whose record would have a number. -/
def settle (id : Int64) : Decision → Pipeline → Pipeline
  | .abort _, p => p
  | .halt _ none, p => p
  | .halt _ (some (message, reason)), p => p.reject message reason
  | .complete, p => { p with id := some id, status := .created }

end Decision

/-! ## §2. Causes. -/

/-- All problems of a graph in one message. -/
def Graph.report (g : Graph) : String := "\n".intercalate (g.problems.map (·.message))

namespace Creation

/-- The refusal of a number for a pipeline that has none. -/
def numberRefusal? (c : Creation) (s : Stores) : Option SequenceError :=
  match c.pipeline.iid with
  | some _ => none
  | none => errorOf? (s.nextNumber (.pipelines c.pipeline.projectId)).1

/-- The refusal to register the ref of a pipeline, unless it is registered. -/
def refRefusal? (c : Creation) (s : Stores) : Option StoreError :=
  match c.pipeline.ciRef with
  | some _ => none
  | none => errorOf? (s.register c.pipeline.projectId c.pipeline.refPath).1

/-- What may decide a run on a creation with a definition and its graph. -/
def causes [Regex.Engine] (c : Creation) (s : Stores) (d : Definition) (g : Graph) :
    List (Option Decision) :=
  [(c.numberRefusal? s).map fun e => .abort (.allocation e),
   (c.refRefusal? s).map fun e => .abort (.persistence e),
   if g.isValid then none else some (.halt "seed" (some (g.report, .configError))),
   if c.pipeline.hasErrors then some (.halt "seed" none) else none,
   (rejection? (Rule.judge d.workflowRules c.pipeline.refName .always)).map fun mistake =>
     .halt "evaluate_workflow_rules" (some mistake),
   if g.size = 0 then some (.halt "create" (some (emptyMessage, .configError))) else none,
   (s.refusal? (.ofGraph c.pipeline g)).map fun e => .abort (.persistence e)]

/-- What a run of the standard chain on a creation comes to: the first cause decides. -/
def decision [Regex.Engine] (c : Creation) (s : Stores) : Decision :=
  match c.definition with
  | none => .abort .missingDefinition
  | some d => ((c.causes s d (c.graphOf d.stages)).findSome? id).getD .complete

/-! ## §3. The causes before the graph. -/

theorem numbering_error (c : Creation) (s : Stores) :
    errorOf? (c.numbering s).result = c.numberRefusal? s := by
  unfold numbering Pipeline.takeNumber numberRefusal?
  cases c.pipeline.iid with
  | some n => rfl
  | none =>
      dsimp only
      cases s.nextNumber (.pipelines c.pipeline.projectId) with
      | mk result t => cases result <;> rfl

/-- Taking a number has nothing to do with the registry. -/
theorem register_takeNumber_error (p : Pipeline) (s : Stores) :
    errorOf? ((p.takeNumber s).pipeline.register (p.takeNumber s).stores).result =
      errorOf? (p.register s).result := by
  obtain ⟨n, -, htake⟩ | ⟨-, e, htake⟩ | ⟨-, n, sequences, -, htake⟩ := p.takeNumber_cases s
  · rw [htake]
  · rw [htake]
  · rw [htake]
    unfold Pipeline.register
    cases p.ciRef with
    | some r => rfl
    | none =>
        unfold Stores.register
        dsimp only
        cases s.faults.ciRefs <;> rfl

theorem registering_error (c : Creation) (s : Stores) :
    errorOf? (c.registering s).result = c.refRefusal? s := by
  unfold registering numbering
  rw [register_takeNumber_error]
  unfold Pipeline.register refRefusal?
  cases c.pipeline.ciRef with
  | some r => rfl
  | none =>
      dsimp only
      cases s.register c.pipeline.projectId c.pipeline.refPath with
      | mk result t => cases result <;> rfl

/-- **Preparing a creation fails for want of a number, or of a registered ref.** -/
theorem prepare_result (c : Creation) (s : Stores) :
    (c.prepare s).result =
      match c.numberRefusal? s, c.refRefusal? s with
      | some e, _ => .error (.allocation e)
      | none, some e => .error (.persistence e)
      | none, none => .ok () := by
  have hnumber := c.numbering_error s
  have href := c.registering_error s
  have hprepared := c.preparation s
  generalize c.prepare s = w at hprepared ⊢
  cases hprepared with
  | unnumbered notes refused =>
      rw [refused] at hnumber
      rw [← hnumber]
      rfl
  | unregistered notes numbered refused =>
      rw [numbered] at hnumber
      rw [refused] at href
      rw [← hnumber, ← href]
      rfl
  | prepared notes numbered registered =>
      rw [numbered] at hnumber
      rw [registered] at href
      rw [← hnumber, ← href]
      rfl

theorem attach_of_valid {g : Graph} (h : g.isValid = true) (c : Creation) :
    (c.attach g).1 = { c with graph := some g } := by
  unfold attach Graph.messages?
  rw [h]
  rfl

theorem attach_of_invalid {g : Graph} (h : g.isValid = false) (c : Creation) :
    (c.attach g).1 = c.reject g.report .configError := by
  unfold attach Graph.messages?
  rw [h]
  rfl

/-! ## §4. The graph that a run meets. -/

variable [Regex.Engine]

/-- What has been kept for a creation, if anything, is the graph of its definition. -/
def Recalls (memo : Option GraphMemo) (c : Creation) : Prop :=
  ∀ m d, memo = some m → m.runId = c.runId → c.definition = some d → m.graph = c.graphOf d.stages

theorem recalls_none (c : Creation) : Recalls none c := nofun

/-- The graph of a creation stays the same on its way. -/
theorem Precedes.graphOf_eq {c k : Creation} (h : c.Precedes k) (stages : List StageDefinition) :
    k.graphOf stages = c.graphOf stages := by
  unfold graphOf
  rw [h.settings, h.pipeline.refName]

theorem Precedes.recalls {c k : Creation} {memo : Option GraphMemo} (h : c.Precedes k)
    (hmemo : Recalls memo c) : Recalls memo k := by
  intro m d hm hrun hdefinition
  rw [h.runId] at hrun
  rw [h.definition] at hdefinition
  rw [h.graphOf_eq]
  exact hmemo m d hm hrun hdefinition

/-- A graph that is recalled is the one that would be built. -/
theorem Recalls.graphWith_eq {memo : Option GraphMemo} {c : Creation} {d : Definition}
    (hmemo : Recalls memo c) (hdefinition : c.definition = some d) :
    (c.graphWith memo d).1 = c.graphOf d.stages := by
  unfold graphWith
  split
  case h_1 m hkept =>
    obtain ⟨hm, hrun⟩ := Option.filter_eq_some_iff.mp hkept
    exact hmemo m d hm (of_decide_eq_true hrun) hdefinition
  case h_2 => rfl

/-- So a prepared creation meets the graph of its definition, new or recalled. -/
theorem Recalls.graphWith_prepare {memo : Option GraphMemo} {c : Creation} {d : Definition}
    (hmemo : Recalls memo c) (hblock : c.BlockSetsVars) (hdefinition : c.definition = some d)
    (s : Stores) : ((c.prepare s).creation.graphWith memo d).1 = c.graphOf d.stages := by
  have hway := ((preparation c s).undecided hblock).1
  have hprepared : (c.prepare s).creation.definition = some d :=
    hway.definition.trans hdefinition
  rw [(hway.recalls hmemo).graphWith_eq hprepared, hway.graphOf_eq]

namespace Seeded

variable {memo : Option GraphMemo} {c : Creation} {s : Stores} {d : Definition} {g : Graph}
  {k : Creation} {t : Stores}

/-- The graph that a creation meets is that of its definition. -/
theorem graph_eq (h : Seeded memo c s d g k t) (hblock : c.BlockSetsVars)
    (hmemo : Recalls memo c) : g = c.graphOf d.stages :=
  h.graph.trans (hmemo.graphWith_prepare hblock h.definition s)

/-- Whatever decides a run on a seeded creation comes behind the number and the ref. -/
theorem decision_eq (h : Seeded memo c s d g k t) (hblock : c.BlockSetsVars)
    (hmemo : Recalls memo c) :
    c.decision s = (((c.causes s d g).drop 2).findSome? id).getD .complete := by
  have hprepared := h.prepared
  rw [prepare_result] at hprepared
  unfold decision
  rw [h.definition]
  dsimp only
  rw [← h.graph_eq hblock hmemo]
  -- a refused number or ref would have aborted the preparation
  cases hnumber : c.numberRefusal? s with
  | some e =>
      rw [hnumber] at hprepared
      cases hprepared
  | none =>
      cases href : c.refRefusal? s with
      | some e =>
          rw [hnumber, href] at hprepared
          cases hprepared
      | none =>
          unfold causes
          rw [hnumber, href]
          rfl

/-- Without errors on the seeded creation it comes behind the graph, too. -/
theorem decision_of_clean (h : Seeded memo c s d g k t) (hblock : c.BlockSetsVars)
    (hmemo : Recalls memo c) (hclean : k.pipeline.hasErrors = false) :
    c.decision s = (((c.causes s d g).drop 4).findSome? id).getD .complete := by
  have hvalid := (h.attached hclean).1
  have hbefore : c.pipeline.hasErrors = false := by
    rw [← (h.undecided hblock hclean).verdict.hasErrors]
    exact hclean
  rw [h.decision_eq hblock hmemo]
  unfold causes
  rw [hvalid, hbefore]
  rfl

end Seeded

/-- Where the rules of the workflow let the ref pass, only the last link is left to
decide. -/
theorem Passed.decision_eq {memo : Option GraphMemo} {c : Creation} {s : Stores} {d : Definition}
    {g : Graph} {k : Creation} {t : Stores} (h : Passed memo c s d g k t)
    (hblock : c.BlockSetsVars) (hmemo : Recalls memo c) :
    c.decision s = (((c.causes s d g).drop 5).findSome? id).getD .complete := by
  have hverdict := h.verdict
  rw [(h.toSeeded.precedes hblock).1.pipeline.refName] at hverdict
  rw [h.toSeeded.decision_of_clean hblock hmemo h.clean]
  unfold causes
  rw [hverdict]
  rfl

end Creation

/-! ## §5. Every run comes to its decision. -/

namespace Pipeline

/-- A rejected pipeline has one more error. -/
theorem errors_reject (p : Pipeline) (message : String) (reason : FailureReason) :
    (p.reject message reason).errors = p.errors ++ [message] := by
  unfold reject
  split <;> rfl

/-- A rejected pipeline has failed for a reason. -/
theorem failed_reject (p : Pipeline) (message : String) (reason : FailureReason) :
    (p.reject message reason).failureReason = some reason ∧
      (p.reject message reason).status = .failed := by
  unfold reject
  split <;> exact ⟨rfl, rfl⟩

theorem SameVerdict.reject {p q : Pipeline} (h : p.SameVerdict q) (message : String)
    (reason : FailureReason) :
    (p.reject message reason).SameVerdict (q.reject message reason) := by
  have herrors : (q.reject message reason).errors = (p.reject message reason).errors := by
    rw [errors_reject, errors_reject, h.errors]
  unfold Pipeline.reject at herrors ⊢
  split
  case isTrue hconfig =>
    rw [if_pos hconfig, if_pos hconfig] at herrors
    exact ⟨h.id, rfl, herrors, rfl, rfl⟩
  case isFalse hconfig =>
    rw [if_neg hconfig, if_neg hconfig] at herrors
    exact ⟨h.id, rfl, herrors, rfl, h.yamlErrors⟩

end Pipeline

namespace Ending

variable [Regex.Engine] {memo : Option GraphMemo} {c : Creation} {s : Stores} {r : Run CreationLink}

/-- **A run answers as it is decided, and its pipeline meets the verdict.** -/
theorem decided (h : Ending memo c s r) (hblock : c.BlockSetsVars)
    (hmemo : Creation.Recalls memo c) :
    r.result = (c.decision s).result ∧
      ((c.decision s).settle s.repository.nextId c.pipeline).SameVerdict r.creation.pipeline := by
  cases h with
  | undefined trace definition =>
      unfold Creation.decision
      rw [definition]
      exact ⟨rfl, .refl _⟩
  | @unprepared trace d e definition refused =>
      have hverdict := ((Creation.preparation c s).undecided hblock).2.verdict
      rw [Creation.prepare_result] at refused
      unfold Creation.decision Creation.causes
      rw [definition]
      -- the refusal that has aborted the preparation is the first cause that applies
      cases hnumber : c.numberRefusal? s with
      | some refusal =>
          rw [hnumber] at refused
          cases refused
          exact ⟨rfl, hverdict⟩
      | none =>
          cases href : c.refRefusal? s with
          | some refusal =>
              rw [hnumber, href] at refused
              cases refused
              exact ⟨rfl, hverdict⟩
          | none =>
              rw [hnumber, href] at refused
              cases refused
  | @haltedAtSeed trace d g k t seeded mistaken =>
      have hprepared := ((Creation.preparation c s).undecided hblock).2.verdict
      have hattached := seeded.creation
      rw [seeded.decision_eq hblock hmemo]
      unfold Creation.causes
      cases hvalid : g.isValid with
      | false =>
          rw [Creation.attach_of_invalid hvalid] at hattached
          rw [hattached]
          exact ⟨rfl, hprepared.reject g.report .configError⟩
      | true =>
          -- then the errors are those that the pipeline has brought along
          rw [Creation.attach_of_valid hvalid] at hattached
          rw [hattached] at mistaken ⊢
          have hbefore : c.pipeline.hasErrors = true := by
            rw [← hprepared.hasErrors]
            exact mistaken
          rw [hbefore]
          exact ⟨rfl, hprepared⟩
  | @haltedAtRules trace d g k t message reason seeded clean verdict =>
      have hverdict := (seeded.undecided hblock clean).verdict
      rw [(seeded.precedes hblock).1.pipeline.refName] at verdict
      rw [seeded.decision_of_clean hblock hmemo clean]
      unfold Creation.causes
      rw [verdict]
      exact ⟨rfl, hverdict.reject message reason⟩
  | @haltedAtBlock trace d g k t passed mistaken =>
      -- a seed block that only sets variables adds no errors
      have hway := (passed.toSeeded.precedes hblock).1.blockSetsVars hblock
      have hsame := (Creation.blockDeferred_undecided hway t).2.verdict.hasErrors
      rw [hsame, passed.clean] at mistaken
      cases mistaken
  | @haltedAtCreate trace d g k t ready empty =>
      have hverdict := (ready.undecided hblock).verdict
      rw [ready.toPassed.decision_eq hblock hmemo]
      unfold Creation.causes
      rw [if_pos empty]
      exact ⟨rfl, hverdict.reject emptyMessage .configError⟩
  | @unpersisted trace d g k t fault ready nonempty faulty =>
      have hundecided := ready.undecided hblock
      rw [hundecided.repository.faults] at faulty
      rw [ready.toPassed.decision_eq hblock hmemo]
      unfold Creation.causes
      rw [if_neg nonempty, Stores.refusal?_eq, faulty]
      exact ⟨rfl, hundecided.verdict⟩
  | @complete trace d g k t ready nonempty healthy =>
      have hundecided := ready.undecided hblock
      have hverdict := hundecided.verdict
      rw [hundecided.repository.faults] at healthy
      rw [ready.toPassed.decision_eq hblock hmemo, hundecided.repository.repository]
      unfold Creation.causes
      rw [if_neg nonempty, Stores.refusal?_eq, healthy]
      exact ⟨rfl, rfl, rfl, hverdict.errors, hverdict.failureReason, hverdict.yamlErrors⟩

/-- The chain halts over errors only. -/
theorem hasErrors_of_halted (h : Ending memo c s r) {o : Outcome} {link : String}
    (hok : r.result = .ok o) (hhalted : o.haltedAt = some link) :
    r.creation.pipeline.hasErrors = true := by
  cases h with
  | undefined trace definition => cases hok
  | unprepared trace definition refused => cases hok
  | haltedAtSeed trace seeded mistaken => exact mistaken
  | haltedAtRules trace seeded clean verdict => exact Creation.hasErrors_reject _ _ _
  | haltedAtBlock trace passed mistaken => exact mistaken
  | haltedAtCreate trace ready empty => exact Creation.hasErrors_reject _ _ _
  | unpersisted trace ready nonempty faulty => cases hok
  | complete trace ready nonempty healthy =>
      cases hok
      cases hhalted

end Ending

/-! ## §6. Runs of a new chain. -/

/-- What is known of a run on a creation with certain stores. -/
structure Run.Decided [Regex.Engine] (c : Creation) (s : Stores) (r : Run CreationLink) : Prop where
  /-- It answers as it is decided. -/
  answered : r.result = (c.decision s).result
  /-- If the pipeline was without errors it has exactly one when the chain halts, and
  has failed for the reason of that one. -/
  reported : c.pipeline.errors = [] → ∀ o link, r.result = .ok o → o.haltedAt = some link →
    ∃ message reason, c.decision s = .halt link (some (message, reason)) ∧
      r.creation.pipeline.errors = [message] ∧
      r.creation.pipeline.failureReason = some reason ∧ r.creation.pipeline.status = .failed

/-- **The first cause that applies decides what a run of a new standard chain comes
to**, as long as the seed block only sets variables. -/
theorem standard_run_decided [Regex.Engine] {c : Creation} (hblock : c.BlockSetsVars) (s : Stores) :
    Run.Decided c s (Chain.standard.run c s) := by
  have hending : Ending none c s (Chain.standard.run c s) := run_ending none c s
  obtain ⟨hresult, hverdict⟩ := hending.decided hblock (Creation.recalls_none c)
  refine ⟨hresult, ?_⟩
  intro hnone o link hok hhalted
  have hmistaken := hending.hasErrors_of_halted hok hhalted
  rw [hresult] at hok
  cases hdecision : c.decision s with
  | abort e =>
      rw [hdecision] at hok
      cases hok
  | complete =>
      rw [hdecision] at hok
      cases hok
      cases hhalted
  | halt at_ mistake =>
      rw [hdecision] at hok hverdict
      cases hok
      cases hhalted
      cases mistake with
      | none =>
          -- no error has been added, so there are none to halt over
          rw [hverdict.hasErrors] at hmistaken
          change c.pipeline.hasErrors = true at hmistaken
          unfold Pipeline.hasErrors at hmistaken
          rw [hnone] at hmistaken
          cases hmistaken
      | some mistake =>
          obtain ⟨message, reason⟩ := mistake
          obtain ⟨-, hstatus, herrors, hreason, -⟩ := hverdict
          refine ⟨message, reason, rfl, ?_, ?_, ?_⟩
          · rw [herrors]
            show (c.pipeline.reject message reason).errors = [message]
            rw [Pipeline.errors_reject, hnone]
            rfl
          · exact hreason.trans (Pipeline.failed_reject c.pipeline message reason).1
          · exact hstatus.trans (Pipeline.failed_reject c.pipeline message reason).2

/-- The sample with rules of the workflow that drop its branch. -/
def Creation.dropped : Creation := Creation.sample.withDefinition .filteredOnMain

theorem Creation.dropped_blockSetsVars : Creation.dropped.BlockSetsVars :=
  Creation.sample_blockSetsVars

/-- Stores in which nothing can be committed. -/
def Stores.uncommitting : Stores :=
  { Stores.empty with faults := ⟨false, false, some .commitRefused⟩ }

/-- The rules of the workflow come before the repository. -/
theorem standard_run_decided_sample :
    Creation.dropped.BlockSetsVars ∧
      Creation.dropped.decision .uncommitting =
        .halt "evaluate_workflow_rules" (some (filteredMessage, .filteredByWorkflowRules)) ∧
      Creation.sample.decision .uncommitting =
        .abort (.persistence (.backend "commit refused")) ∧
      Run.Decided .dropped .uncommitting (Chain.standard.run .dropped .uncommitting) :=
  ⟨Creation.dropped_blockSetsVars, by decide +kernel, by decide +kernel,
    standard_run_decided Creation.dropped_blockSetsVars .uncommitting⟩

end CiPipeline
