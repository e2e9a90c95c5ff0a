/-
  CiPipeline.Proofs.Creation.Seeding
  ──────────────────────────────────
  **What a seeded creation is, and what later steps do with it.**

  Seeding fails without a definition, or while the creation is prepared; otherwise
  the creation meets its graph (`Seeded`).  It stays without errors only if it had
  none and the graph is valid, and then the graph is attached to it
  (`Seeded.attached`).  The steps behind it reject the pipeline, run the deferred
  seed block, or mark the pipeline as created.
-/
import CiPipeline.Creation.Filtering
import CiPipeline.Creation.Persistence
import CiPipeline.Proofs.Creation.Frame
import CiPipeline.Proofs.Graph.Structure

namespace CiPipeline.Creation

/-! ## §1. The creation and its graph. -/

/-- Preparing a creation changes its pipeline and what is known of the ref, and the
seed block may leave a trace. -/
theorem prepare_frame (c : Creation) (s : Stores) :
    ∃ p lookup runs, (c.prepare s).creation =
      { c with pipeline := p, lookup := lookup, blockRuns := runs } := by
  have hprepared := preparation c s
  -- only the way in which it ends matters from here on
  generalize c.prepare s = w at hprepared ⊢
  cases hprepared with
  | unnumbered notes refused => exact ⟨_, c.lookup, c.blockRuns, rfl⟩
  | unregistered notes numbered refused => exact ⟨_, c.lookup, c.blockRuns, rfl⟩
  | prepared notes numbered registered =>
      obtain ⟨answer, lookup, hprotect⟩ :=
        protect_eq { c with pipeline := (c.registering s).pipeline }
      show ∃ p lookup runs, blockAtOnce _ = _
      rw [hprotect]
      unfold blockAtOnce
      split
      case isTrue => exact ⟨_, lookup, c.blockRuns, rfl⟩
      case isFalse =>
        obtain ⟨p, runs, hrun, -⟩ := runBlock_eq
          { c with
            pipeline := { (c.registering s).pipeline with refProtected := answer }
            lookup := lookup }
        exact ⟨p, lookup, runs, hrun⟩

/-- A valid graph is attached; any other one has the pipeline rejected. -/
theorem attach_cases (c : Creation) (g : Graph) :
    (g.isValid = true ∧ (c.attach g).1 = { c with graph := some g }) ∨
    (g.isValid = false ∧ ∃ message, (c.attach g).1 = c.reject message .configError) := by
  unfold attach Graph.messages?
  cases hvalid : g.isValid with
  | true => exact .inl ⟨rfl, rfl⟩
  | false => exact .inr ⟨rfl, _, rfl⟩

/-- A rejected creation goes its way. -/
theorem precedes_reject (c : Creation) (message : String) (reason : FailureReason) :
    c.Precedes (c.reject message reason) :=
  precedes_of_pipeline (c.pipeline.precedes_reject message reason)

/-- A rejected creation has an error. -/
theorem hasErrors_reject (c : Creation) (message : String) (reason : FailureReason) :
    (c.reject message reason).pipeline.hasErrors = true :=
  c.pipeline.hasErrors_reject message reason

section

variable [Regex.Engine]

/-- A creation has been prepared and has met its graph, which is attached to it or
whose problems are recorded. -/
structure Seeded (memo : Option GraphMemo) (c : Creation) (s : Stores) (d : Definition)
    (g : Graph) (k : Creation) (t : Stores) : Prop where
  definition : c.definition = some d
  prepared : (c.prepare s).result = .ok ()
  graph : g = ((c.prepare s).creation.graphWith memo d).1
  creation : k = ((c.prepare s).creation.attach g).1
  stores : t = (c.prepare s).stores

/-- Seeding fails without a definition. -/
theorem seed_of_undefined {c : Creation} (h : c.definition = none) (memo : Option GraphMemo)
    (s : Stores) : c.seed memo s = (.abort .missingDefinition c s [], memo) := by
  unfold seed
  rw [h]

/-- Seeding fails when the creation is not prepared. -/
theorem seed_of_refused {c : Creation} {s : Stores} {d : Definition} {e : CreationError}
    (hdefinition : c.definition = some d) (hrefused : (c.prepare s).result = .error e)
    (memo : Option GraphMemo) : c.seed memo s = (c.prepare s, memo) := by
  unfold seed
  rw [hdefinition]
  dsimp only
  rw [hrefused]

/-- **Otherwise the creation is seeded, and its graph is kept.** -/
theorem Seeded.seed_eq {memo : Option GraphMemo} {c : Creation} {s : Stores} {d : Definition}
    {g : Graph} {k : Creation} {t : Stores} (h : Seeded memo c s d g k t) :
    ∃ notes, c.seed memo s = (.done k t notes, some ⟨(c.prepare s).creation.runId, g⟩) := by
  unfold seed
  rw [h.definition]
  dsimp only
  rw [h.prepared]
  dsimp only
  rw [h.creation, h.stores, h.graph]
  exact ⟨_, rfl⟩

/-- Whatever has been kept is the graph of some definition. -/
def KeepsBuilt (memo : Option GraphMemo) : Prop := ∀ m, memo = some m → m.graph.Built

namespace Seeded

variable {memo : Option GraphMemo} {c : Creation} {s : Stores} {d : Definition} {g : Graph}
  {k : Creation} {t : Stores}

/-- The graph that a creation meets has been built, now or before. -/
theorem built (h : Seeded memo c s d g k t) (hmemo : KeepsBuilt memo) : g.Built := by
  rw [h.graph]
  unfold graphWith
  split
  case h_1 m hkept =>
    -- the graph is not compared with the definition, it is only known to be built
    obtain ⟨hm, -⟩ := Option.filter_eq_some_iff.mp hkept
    exact hmemo m hm
  case h_2 => exact ⟨_, _, _, rfl⟩

/-- A seeded creation has the definition that it started with. -/
theorem definition_eq (h : Seeded memo c s d g k t) : k.definition = some d := by
  obtain ⟨p, lookup, runs, hprepared⟩ := c.prepare_frame s
  obtain ⟨-, hattach⟩ | ⟨-, message, hattach⟩ := attach_cases (c.prepare s).creation g
  · rw [h.creation, hattach, hprepared]
    exact h.definition
  · rw [h.creation, hattach, hprepared]
    exact h.definition

/-- **A seeded creation without errors has a valid graph attached.** -/
theorem attached (h : Seeded memo c s d g k t) (hclean : k.pipeline.hasErrors = false) :
    g.isValid = true ∧ k = { (c.prepare s).creation with graph := some g } := by
  obtain ⟨hvalid, hattach⟩ | ⟨-, message, hattach⟩ := attach_cases (c.prepare s).creation g
  · exact ⟨hvalid, h.creation.trans hattach⟩
  · rw [h.creation, hattach, hasErrors_reject] at hclean
    cases hclean

/-- Seeding takes a creation on its way, and the repository does not hear of it. -/
theorem precedes (h : Seeded memo c s d g k t) (hblock : c.BlockSetsVars) :
    c.Precedes k ∧ s.SameRepository t := by
  obtain ⟨hprepared, hundecided⟩ := (preparation c s).undecided hblock
  rw [h.stores]
  refine ⟨?_, hundecided.repository⟩
  obtain ⟨-, hattach⟩ | ⟨-, message, hattach⟩ := attach_cases (c.prepare s).creation g
  · rw [h.creation, hattach]
    exact hprepared.trans ⟨rfl, rfl, rfl, rfl, rfl, rfl, rfl, .refl _⟩
  · rw [h.creation, hattach]
    exact hprepared.trans (precedes_reject _ _ _)

/-- As long as there are no errors, nothing is decided. -/
theorem undecided (h : Seeded memo c s d g k t) (hblock : c.BlockSetsVars)
    (hclean : k.pipeline.hasErrors = false) : Undecided c.pipeline s k.pipeline t := by
  obtain ⟨-, hundecided⟩ := (preparation c s).undecided hblock
  rw [(h.attached hclean).2, h.stores]
  exact hundecided

/-- A seeded creation has the number that it has taken, and nothing else has
changed the sequences. -/
theorem number (h : Seeded memo c s d g k t) (hblock : c.BlockSetsVars) :
    (∃ n, k.pipeline.iid = some n) ∧ k.pipeline.iid = (c.numbering s).pipeline.iid ∧
      t.sequences = (c.numbering s).stores.sequences := by
  obtain ⟨hiid, hsequences⟩ := (preparation c s).number hblock
  obtain ⟨n, hn⟩ := (preparation c s).iid_of_ok hblock h.prepared
  have hk : k.pipeline.iid = some n := by
    obtain ⟨-, hattach⟩ | ⟨-, message, hattach⟩ := attach_cases (c.prepare s).creation g
    · rw [h.creation, hattach]
      exact hn
    · -- a rejected pipeline keeps its number
      rw [h.creation, hattach]
      exact (precedes_reject _ _ _).pipeline.iid n hn
  refine ⟨⟨n, hk⟩, ?_, ?_⟩
  · rw [hk, ← hiid, hn]
  · rw [h.stores]
    exact hsequences

end Seeded

end

/-! ## §2. The rules of the workflow and the deferred seed block. -/

/-- What is recorded on a pipeline that the rules of the workflow do not let pass. -/
def rejection? : Verdict → Option (String × FailureReason)
  | .included _ => none
  | .excluded => some (filteredMessage, .filteredByWorkflowRules)
  | .invalidPattern pattern => some (invalidRuleMessage pattern, .configError)

/-- The rules of the workflow decide on the ref and change nothing else. -/
theorem filter_eq [Regex.Engine] {c : Creation} {d : Definition} (h : c.definition = some d)
    (s : Stores) :
    ∃ notes, c.filter s =
      .done
        (match rejection? (Rule.judge d.workflowRules c.pipeline.refName .always) with
          | none => c
          | some (message, reason) => c.reject message reason)
        s notes := by
  unfold filter
  rw [h]
  dsimp only
  cases Rule.judge d.workflowRules c.pipeline.refName .always with
  | included w => exact ⟨_, rfl⟩
  | excluded => exact ⟨_, rfl⟩
  | invalidPattern pattern => exact ⟨_, rfl⟩

theorem runDeferredBlock_eq (c : Creation) (s : Stores) :
    ∃ notes, c.runDeferredBlock s = .done c.blockDeferred s notes := by
  unfold runDeferredBlock blockDeferred
  split
  case isTrue => exact ⟨_, rfl⟩
  case isFalse => exact ⟨_, rfl⟩

/-- The deferred seed block leaves the graph alone. -/
theorem blockDeferred_graph (c : Creation) : c.blockDeferred.graph = c.graph := by
  unfold blockDeferred
  split
  case isTrue =>
    obtain ⟨p, runs, hrun, -⟩ := c.runBlock_eq
    rw [hrun]
  case isFalse => rfl

theorem blockDeferred_undecided {c : Creation} (h : c.BlockSetsVars) (s : Stores) :
    c.Precedes c.blockDeferred ∧ Undecided c.pipeline s c.blockDeferred.pipeline s := by
  unfold blockDeferred
  split
  case isTrue =>
    obtain ⟨hway, hundecided, -, -⟩ := runBlock_undecided h s
    exact ⟨hway, hundecided⟩
  case isFalse => exact ⟨precedes_of_pipeline (.refl _), .refl _ s⟩

/-! ## §3. What has been kept for another creation. -/

/-- Preparing a creation does not change its identity. -/
theorem prepare_runId (c : Creation) (s : Stores) : (c.prepare s).creation.runId = c.runId := by
  obtain ⟨p, lookup, runs, hprepared⟩ := c.prepare_frame s
  rw [hprepared]

/-- Nothing has been kept for a creation of this identity. -/
def KeepsNothingFor (memo : Option GraphMemo) (id : RunId) : Prop :=
  ∀ m, memo = some m → m.runId ≠ id

/-- The graph is then built as if nothing had been kept at all. -/
theorem graphWith_of_other [Regex.Engine] {memo : Option GraphMemo} {c : Creation}
    (h : KeepsNothingFor memo c.runId) (d : Definition) :
    c.graphWith memo d = c.graphWith none d := by
  have hnone : memo.filter (·.runId = c.runId) = none := by
    rw [Option.filter_eq_none_iff]
    intro m hm
    rw [decide_eq_true_eq]
    exact h m hm
  unfold graphWith
  rw [hnone]
  rfl

/-- So the creation is seeded as if nothing had been kept. -/
theorem seed_of_other [Regex.Engine] {memo : Option GraphMemo} {c : Creation}
    (h : KeepsNothingFor memo c.runId) (s : Stores) : (c.seed memo s).1 = (c.seed none s).1 := by
  unfold seed
  cases c.definition with
  | none => rfl
  | some d =>
      dsimp only
      cases (c.prepare s).result with
      | error e => rfl
      | ok u =>
          rw [← c.prepare_runId s] at h
          dsimp only
          rw [graphWith_of_other h]

end CiPipeline.Creation
