/-
  CiPipeline.Proofs.Chain.Ending
  ──────────────────────────────
  **How a run of the standard chain ends.**

  A run of the standard chain ends in one of eight ways (`Ending`): two of them
  before there is a graph, one for each link that may halt the chain, one at the
  repository, and one when everything has been done.  Each way says what the run
  leaves behind, so that whoever wants to know something about all runs has to look
  at eight runs only (`run_ending`).  The first link may have kept a graph from
  earlier runs.
-/
import CiPipeline.Chain.Standard
import CiPipeline.Proofs.Chain.Step
import CiPipeline.Proofs.Creation.Seeding
import CiPipeline.Proofs.Store.Persisting

namespace CiPipeline

/-! ## §1. One link of a run. -/

namespace Chain

section Links

variable {L : Type} [Link L] {a : RunAttributes} {performed : List String} {link link' : L}
  {links : List L} {c d : Creation} {s t : Stores} {notes : List Note}

/-- A link that fails aborts the run. -/
theorem runFrom_of_error {e : CreationError} (h : Link.work link c s = ⟨.error e, link', d, t, notes⟩) :
    ∃ trace, runFrom a performed (link :: links) c s =
      ⟨.error e, link' :: links, d, t, trace⟩ :=
  ⟨_, runFrom_cons_of_error h⟩

/-- A link after which the chain halts is the last one of the run. -/
theorem runFrom_of_halts (h : Link.work link c s = ⟨.ok (), link', d, t, notes⟩)
    (hhalts : Link.halts link' d = true) :
    ∃ trace, runFrom a performed (link :: links) c s =
      ⟨.ok ⟨performed ++ [Link.name link], some (Link.name link)⟩, link' :: links, d, t, trace⟩ :=
  ⟨_, runFrom_cons_of_halts h hhalts⟩

/-- After any other link the run goes on with the next one. -/
theorem runFrom_of_goesOn (h : Link.work link c s = ⟨.ok (), link', d, t, notes⟩)
    (hhalts : Link.halts link' d = false)
    {result : Except CreationError Outcome} {left : List L} {d' : Creation} {t' : Stores}
    (hrest : ∃ trace, runFrom a (performed ++ [Link.name link]) links d t =
      ⟨result, left, d', t', trace⟩) :
    ∃ trace, runFrom a performed (link :: links) c s =
      ⟨result, link' :: left, d', t', trace⟩ := by
  obtain ⟨trace, hrest⟩ := hrest
  rw [runFrom_cons_of_goesOn h hhalts, hrest]
  exact ⟨_, rfl⟩

/-- A run that has performed its last link is complete. -/
theorem runFrom_nil : ∃ trace, runFrom a performed [] c s =
    (⟨.ok ⟨performed, none⟩, [], c, s, trace⟩ : Run L) :=
  ⟨_, rfl⟩

end Links

/-- The standard chain whose first link may have kept a graph. -/
def standardWith (memo : Option GraphMemo) : Chain CreationLink :=
  ⟨[.seed memo, .workflowRules, .seedBlock, .create]⟩

end Chain

/-! ## §2. The eight ways. -/

namespace Creation

variable [Regex.Engine]

/-- A creation has been seeded without errors, and the rules of the workflow let its
ref pass. -/
structure Passed (memo : Option GraphMemo) (c : Creation) (s : Stores) (d : Definition)
    (g : Graph) (k : Creation) (t : Stores) : Prop extends Seeded memo c s d g k t where
  clean : k.pipeline.hasErrors = false
  verdict : rejection? (Rule.judge d.workflowRules k.pipeline.refName .always) = none

/-- A creation has passed the rules of the workflow, and its deferred seed block has
added no errors. -/
structure Ready (memo : Option GraphMemo) (c : Creation) (s : Stores) (d : Definition)
    (g : Graph) (k : Creation) (t : Stores) : Prop extends Passed memo c s d g k t where
  cleanStill : k.blockDeferred.pipeline.hasErrors = false

/-- The graph that the last link finds. -/
theorem Ready.graph_eq {memo : Option GraphMemo} {c : Creation} {s : Stores} {d : Definition}
    {g : Graph} {k : Creation} {t : Stores} (h : Ready memo c s d g k t) :
    k.blockDeferred.graph = some g := by
  rw [blockDeferred_graph, (h.toSeeded.attached h.clean).2]

end Creation

open Creation (Seeded Passed Ready rejection? KeepsBuilt)

/-- The links of the standard chain once a creation has been seeded. -/
def linksAfter (c : Creation) (s : Stores) (g : Graph) : List CreationLink :=
  (Chain.standardWith (some ⟨(c.prepare s).creation.runId, g⟩)).links

variable [Regex.Engine]

/-- How a run of the standard chain ends, and what it leaves behind. -/
inductive Ending (memo : Option GraphMemo) (c : Creation) (s : Stores) :
    Run CreationLink → Prop where
  /-- There is no definition. -/
  | undefined (trace : List Notice) (definition : c.definition = none) :
      Ending memo c s ⟨.error .missingDefinition, (Chain.standardWith memo).links, c, s, trace⟩
  /-- The creation is not prepared. -/
  | unprepared (trace : List Notice) {d : Definition} {e : CreationError}
      (definition : c.definition = some d) (refused : (c.prepare s).result = .error e) :
      Ending memo c s ⟨.error e, (Chain.standardWith memo).links, (c.prepare s).creation,
        (c.prepare s).stores, trace⟩
  /-- The seeded creation has errors. -/
  | haltedAtSeed (trace : List Notice) {d : Definition} {g : Graph} {k : Creation} {t : Stores}
      (seeded : Seeded memo c s d g k t) (mistaken : k.pipeline.hasErrors = true) :
      Ending memo c s ⟨.ok ⟨["seed"], some "seed"⟩, linksAfter c s g, k, t, trace⟩
  /-- The rules of the workflow do not let the ref pass. -/
  | haltedAtRules (trace : List Notice) {d : Definition} {g : Graph} {k : Creation} {t : Stores}
      {message : String} {reason : FailureReason}
      (seeded : Seeded memo c s d g k t) (clean : k.pipeline.hasErrors = false)
      (verdict : rejection? (Rule.judge d.workflowRules k.pipeline.refName .always) =
        some (message, reason)) :
      Ending memo c s
        ⟨.ok ⟨["seed", "evaluate_workflow_rules"], some "evaluate_workflow_rules"⟩,
          linksAfter c s g, k.reject message reason, t, trace⟩
  /-- The deferred seed block has added errors. -/
  | haltedAtBlock (trace : List Notice) {d : Definition} {g : Graph} {k : Creation} {t : Stores}
      (passed : Passed memo c s d g k t)
      (mistaken : k.blockDeferred.pipeline.hasErrors = true) :
      Ending memo c s
        ⟨.ok ⟨["seed", "evaluate_workflow_rules", "seed_block"], some "seed_block"⟩,
          linksAfter c s g, k.blockDeferred, t, trace⟩
  /-- The graph has no jobs. -/
  | haltedAtCreate (trace : List Notice) {d : Definition} {g : Graph} {k : Creation} {t : Stores}
      (ready : Ready memo c s d g k t) (empty : g.size = 0) :
      Ending memo c s
        ⟨.ok ⟨["seed", "evaluate_workflow_rules", "seed_block", "create"], some "create"⟩,
          linksAfter c s g, k.blockDeferred.reject emptyMessage .configError, t, trace⟩
  /-- The repository refuses the record. -/
  | unpersisted (trace : List Notice) {d : Definition} {g : Graph} {k : Creation} {t : Stores}
      {fault : RepositoryFault} (ready : Ready memo c s d g k t) (nonempty : g.size ≠ 0)
      (faulty : t.faults.repository = some fault) :
      Ending memo c s
        ⟨.error (.persistence fault.refusal), linksAfter c s g, k.blockDeferred,
          { t with
            repository := t.repository.burning fault.burnt
            calls := t.calls ++ fault.attempted },
          trace⟩
  /-- Everything has been done. -/
  | complete (trace : List Notice) {d : Definition} {g : Graph} {k : Creation} {t : Stores}
      (ready : Ready memo c s d g k t) (nonempty : g.size ≠ 0)
      (healthy : t.faults.repository = none) :
      Ending memo c s
        ⟨.ok ⟨["seed", "evaluate_workflow_rules", "seed_block", "create"], none⟩,
          linksAfter c s g, k.blockDeferred.created t.repository.nextId,
          { t with
            repository := t.repository.adding (.ofGraph k.blockDeferred.pipeline g)
            calls := t.calls ++ [.begin, .insert, .commit] },
          trace⟩

/-! ## §3. Every run ends in one of them. -/

theorem ending_of_runFrom {memo : Option GraphMemo} {c d : Creation} {s t : Stores}
    {result : Except CreationError Outcome} {links : List CreationLink}
    (hending : ∀ trace, Ending memo c s ⟨result, links, d, t, trace⟩)
    (hrun : ∃ trace, Chain.runFrom (Chain.attributes c) [] (Chain.standardWith memo).links c s =
      ⟨result, links, d, t, trace⟩) :
    Ending memo c s ((Chain.standardWith memo).run c s) := by
  obtain ⟨trace, hrun⟩ := hrun
  unfold Chain.run
  dsimp only
  rw [hrun]
  exact hending _

theorem work_seed_of_undefined {c : Creation} (h : c.definition = none) (memo : Option GraphMemo)
    (s : Stores) :
    Link.work (CreationLink.seed memo) c s =
      ⟨.error .missingDefinition, .seed memo, c, s, []⟩ := by
  show (c.seed memo s).1.leaving (CreationLink.seed (c.seed memo s).2) = _
  rw [Creation.seed_of_undefined h]
  rfl

theorem work_seed_of_refused {c : Creation} {s : Stores} {d : Definition} {e : CreationError}
    (hdefinition : c.definition = some d) (hrefused : (c.prepare s).result = .error e)
    (memo : Option GraphMemo) :
    Link.work (CreationLink.seed memo) c s =
      ⟨.error e, .seed memo, (c.prepare s).creation, (c.prepare s).stores, (c.prepare s).notes⟩ := by
  show (c.seed memo s).1.leaving (CreationLink.seed (c.seed memo s).2) = _
  rw [Creation.seed_of_refused hdefinition hrefused]
  unfold Work.leaving
  rw [hrefused]

theorem work_seed {memo : Option GraphMemo} {c k : Creation} {s t : Stores} {d : Definition}
    {g : Graph} (h : Seeded memo c s d g k t) :
    ∃ notes, Link.work (CreationLink.seed memo) c s =
      ⟨.ok (), .seed (some ⟨(c.prepare s).creation.runId, g⟩), k, t, notes⟩ := by
  obtain ⟨notes, hseed⟩ := h.seed_eq
  refine ⟨notes, ?_⟩
  show (c.seed memo s).1.leaving (CreationLink.seed (c.seed memo s).2) = _
  rw [hseed]
  rfl

theorem work_create_of_empty {c : Creation} {g : Graph} (hgraph : c.graph = some g)
    (hsize : g.size = 0) (s : Stores) :
    Link.work CreationLink.create c s =
      ⟨.ok (), .create, c.reject emptyMessage .configError, s, []⟩ := by
  show (c.create s).leaving CreationLink.create = _
  unfold Creation.create
  rw [hgraph]
  dsimp only
  rw [if_pos hsize]
  rfl

theorem work_create_of_fault {c : Creation} {g : Graph} (hgraph : c.graph = some g)
    (hsize : g.size ≠ 0) {s : Stores} {fault : RepositoryFault}
    (hfault : s.faults.repository = some fault) :
    ∃ notes, Link.work CreationLink.create c s =
      ⟨.error (.persistence fault.refusal), .create, c,
        { s with
          repository := s.repository.burning fault.burnt
          calls := s.calls ++ fault.attempted },
        notes⟩ := by
  show ∃ notes, (c.create s).leaving CreationLink.create = _
  unfold Creation.create
  rw [hgraph]
  dsimp only
  rw [if_neg hsize, Stores.persist_of_fault hfault]
  exact ⟨_, rfl⟩

theorem work_create_of_healthy {c : Creation} {g : Graph} (hgraph : c.graph = some g)
    (hsize : g.size ≠ 0) {s : Stores} (hhealthy : s.faults.repository = none) :
    ∃ notes, Link.work CreationLink.create c s =
      ⟨.ok (), .create, c.created s.repository.nextId,
        { s with
          repository := s.repository.adding (.ofGraph c.pipeline g)
          calls := s.calls ++ [.begin, .insert, .commit] },
        notes⟩ := by
  show ∃ notes, (c.create s).leaving CreationLink.create = _
  unfold Creation.create
  rw [hgraph]
  dsimp only
  rw [if_neg hsize, Stores.persist_of_healthy hhealthy]
  exact ⟨_, rfl⟩

theorem work_rules {c : Creation} {d : Definition} (hdefinition : c.definition = some d)
    (s : Stores) :
    ∃ notes, Link.work CreationLink.workflowRules c s =
      ⟨.ok (), .workflowRules,
        (match rejection? (Rule.judge d.workflowRules c.pipeline.refName .always) with
          | none => c
          | some (message, reason) => c.reject message reason),
        s, notes⟩ := by
  obtain ⟨notes, hfilter⟩ := Creation.filter_eq hdefinition s
  refine ⟨notes, ?_⟩
  show (c.filter s).leaving CreationLink.workflowRules = _
  rw [hfilter]
  rfl

theorem work_block (c : Creation) (s : Stores) :
    ∃ notes, Link.work CreationLink.seedBlock c s =
      ⟨.ok (), .seedBlock, c.blockDeferred, s, notes⟩ := by
  obtain ⟨notes, hblock⟩ := Creation.runDeferredBlock_eq c s
  refine ⟨notes, ?_⟩
  show (c.runDeferredBlock s).leaving CreationLink.seedBlock = _
  rw [hblock]
  rfl

/-- What becomes of a ready creation is up to the last link. -/
theorem runFrom_of_ready {memo : Option GraphMemo} {c k k' : Creation} {s t t' : Stores}
    {d : Definition} {g : Graph} {a : RunAttributes} {result : Except CreationError Outcome}
    {left : List CreationLink} (hready : Ready memo c s d g k t)
    (hlast : ∃ trace, Chain.runFrom a ["seed", "evaluate_workflow_rules", "seed_block"]
      [CreationLink.create] k.blockDeferred t = ⟨result, left, k', t', trace⟩) :
    ∃ trace, Chain.runFrom a [] (Chain.standardWith memo).links c s =
      ⟨result, .seed (some ⟨(c.prepare s).creation.runId, g⟩) :: .workflowRules :: .seedBlock ::
        left, k', t', trace⟩ := by
  obtain ⟨seedNotes, hseed⟩ := work_seed hready.toSeeded
  obtain ⟨rulesNotes, hrules⟩ := work_rules hready.definition_eq t
  obtain ⟨blockNotes, hblock⟩ := work_block k t
  rw [hready.verdict] at hrules
  exact Chain.runFrom_of_goesOn hseed hready.clean
    (Chain.runFrom_of_goesOn hrules hready.clean
      (Chain.runFrom_of_goesOn hblock hready.cleanStill hlast))

/-- Behind the first link, a seeded creation without errors ends in one of the five
ways that are left. -/
theorem ending_of_seeded {memo : Option GraphMemo} {c k : Creation} {s t : Stores}
    {d : Definition} {g : Graph} (hseeded : Seeded memo c s d g k t)
    (hclean : k.pipeline.hasErrors = false) :
    Ending memo c s ((Chain.standardWith memo).run c s) := by
  -- each case is the work of one link more, and every link but the last goes on
  obtain ⟨seedNotes, hseed⟩ := work_seed hseeded
  obtain ⟨rulesNotes, hrules⟩ := work_rules hseeded.definition_eq t
  cases hverdict : rejection? (Rule.judge d.workflowRules k.pipeline.refName .always) with
  | some rejection =>
      obtain ⟨message, reason⟩ := rejection
      rw [hverdict] at hrules
      exact ending_of_runFrom (fun trace => .haltedAtRules trace hseeded hclean hverdict)
        (Chain.runFrom_of_goesOn hseed hclean
          (Chain.runFrom_of_halts hrules (Creation.hasErrors_reject k message reason)))
  | none =>
      rw [hverdict] at hrules
      -- from here on the graph is valid and attached, whatever the seed block does
      have hpassed : Passed memo c s d g k t := ⟨hseeded, hclean, hverdict⟩
      obtain ⟨blockNotes, hblock⟩ := work_block k t
      cases hstill : k.blockDeferred.pipeline.hasErrors with
      | true =>
          exact ending_of_runFrom (fun trace => .haltedAtBlock trace hpassed hstill)
            (Chain.runFrom_of_goesOn hseed hclean
              (Chain.runFrom_of_goesOn hrules hclean (Chain.runFrom_of_halts hblock hstill)))
      | false =>
          have hready : Ready memo c s d g k t := ⟨hpassed, hstill⟩
          by_cases hsize : g.size = 0
          · have hcreate := work_create_of_empty hready.graph_eq hsize t
            exact ending_of_runFrom (fun trace => .haltedAtCreate trace hready hsize)
              (runFrom_of_ready hready
                (Chain.runFrom_of_halts hcreate (Creation.hasErrors_reject _ _ _)))
          · cases hrepository : t.faults.repository with
            | some fault =>
                obtain ⟨createNotes, hcreate⟩ := work_create_of_fault hready.graph_eq hsize hrepository
                exact ending_of_runFrom (fun trace => .unpersisted trace hready hsize hrepository)
                  (runFrom_of_ready hready (Chain.runFrom_of_error hcreate))
            | none =>
                obtain ⟨createNotes, hcreate⟩ := work_create_of_healthy hready.graph_eq hsize hrepository
                exact ending_of_runFrom (fun trace => .complete trace hready hsize hrepository)
                  (runFrom_of_ready hready
                    (Chain.runFrom_of_goesOn hcreate hstill Chain.runFrom_nil))

/-- **Every run of the standard chain ends in one of the eight ways.** -/
theorem run_ending (memo : Option GraphMemo) (c : Creation) (s : Stores) :
    Ending memo c s ((Chain.standardWith memo).run c s) := by
  cases hdefinition : c.definition with
  | none =>
      have hwork := work_seed_of_undefined hdefinition memo s
      exact ending_of_runFrom (fun trace => .undefined trace hdefinition)
        (Chain.runFrom_of_error hwork)
  | some d =>
      cases hprepared : (c.prepare s).result with
      | error e =>
          have hwork := work_seed_of_refused hdefinition hprepared memo
          exact ending_of_runFrom (fun trace => .unprepared trace hdefinition hprepared)
            (Chain.runFrom_of_error hwork)
      | ok u =>
          have hseeded : Seeded memo c s d _ _ _ := ⟨hdefinition, hprepared, rfl, rfl, rfl⟩
          obtain ⟨notes, hwork⟩ := work_seed hseeded
          -- a graph with problems is an error, and so is one that was there before the run
          cases herrors : ((c.prepare s).creation.attach _).1.pipeline.hasErrors with
          | true =>
              exact ending_of_runFrom (fun trace => .haltedAtSeed trace hseeded herrors)
                (Chain.runFrom_of_halts hwork herrors)
          | false => exact ending_of_seeded hseeded herrors

/-! ## §4. What all the ways have in common. -/

/-- All links have been performed, and none of them has failed or halted the run. -/
def Run.isComplete {L : Type} (r : Run L) : Bool :=
  match r.result with
  | .ok o => o.isComplete
  | .error _ => false

namespace Creation

/-- A creation that goes its way may only set variables in its deferred seed block. -/
theorem Seeded.precedes_blockDeferred {memo : Option GraphMemo} {c : Creation} {s : Stores}
    {d : Definition} {g : Graph} {k : Creation} {t : Stores} (h : Seeded memo c s d g k t)
    (hblock : c.BlockSetsVars) : k.Precedes k.blockDeferred :=
  (blockDeferred_undecided ((h.precedes hblock).1.blockSetsVars hblock) t).1

/-- Nothing is decided before the last link. -/
theorem Ready.undecided {memo : Option GraphMemo} {c : Creation} {s : Stores} {d : Definition}
    {g : Graph} {k : Creation} {t : Stores} (h : Ready memo c s d g k t)
    (hblock : c.BlockSetsVars) : Undecided c.pipeline s k.blockDeferred.pipeline t := by
  have hseeded := h.toSeeded.undecided hblock h.clean
  have hway := (h.toSeeded.precedes hblock).1
  exact hseeded.trans (blockDeferred_undecided (hway.blockSetsVars hblock) t).2

omit [Regex.Engine] in
theorem precedes_created (c : Creation) (id : Int64) : c.Precedes (c.created id) :=
  precedes_of_pipeline ⟨rfl, rfl, rfl, rfl, rfl, rfl, fun _ h => h, fun _ h => h⟩

end Creation

namespace Ending

variable {memo : Option GraphMemo} {c : Creation} {s : Stores} {r : Run CreationLink}

/-- A run has stopped before anything happened, or while the creation was prepared,
or the creation has been seeded and has gone its way from there. -/
theorem beginning (h : Ending memo c s r) (hblock : c.BlockSetsVars) :
    (c.definition = none ∧ r.creation = c ∧ r.stores = s ∧
      r.links = (Chain.standardWith memo).links) ∨
    (∃ d, c.definition = some d ∧ r.creation = (c.prepare s).creation ∧
      r.stores = (c.prepare s).stores ∧ r.links = (Chain.standardWith memo).links) ∨
    (∃ d g k t, Seeded memo c s d g k t ∧ k.Precedes r.creation ∧
      r.stores.sequences = t.sequences ∧ r.links = linksAfter c s g) := by
  cases h with
  | undefined trace definition => exact .inl ⟨definition, rfl, rfl, rfl⟩
  | @unprepared trace d e definition refused =>
      exact .inr (.inl ⟨d, definition, rfl, rfl, rfl⟩)
  | @haltedAtSeed trace d g k t seeded mistaken =>
      exact .inr (.inr ⟨d, g, k, t, seeded, Creation.precedes_of_pipeline (.refl _), rfl, rfl⟩)
  | @haltedAtRules trace d g k t message reason seeded clean verdict =>
      exact .inr (.inr ⟨d, g, k, t, seeded, Creation.precedes_reject _ _ _, rfl, rfl⟩)
  | @haltedAtBlock trace d g k t passed mistaken =>
      have hway := passed.toSeeded.precedes_blockDeferred hblock
      exact .inr (.inr ⟨d, g, k, t, passed.toSeeded, hway, rfl, rfl⟩)
  | @haltedAtCreate trace d g k t ready empty =>
      have hway := ready.toSeeded.precedes_blockDeferred hblock
      exact .inr (.inr ⟨d, g, k, t, ready.toSeeded, hway.trans (Creation.precedes_reject _ _ _),
        rfl, rfl⟩)
  | @unpersisted trace d g k t fault ready nonempty faulty =>
      have hway := ready.toSeeded.precedes_blockDeferred hblock
      exact .inr (.inr ⟨d, g, k, t, ready.toSeeded, hway, rfl, rfl⟩)
  | @complete trace d g k t ready nonempty healthy =>
      have hway := ready.toSeeded.precedes_blockDeferred hblock
      exact .inr (.inr ⟨d, g, k, t, ready.toSeeded, hway.trans (Creation.precedes_created _ _),
        rfl, rfl⟩)

/-- A run leaves the standard chain behind, and what it keeps has been built. -/
theorem links (h : Ending memo c s r) (hblock : c.BlockSetsVars) (hmemo : KeepsBuilt memo) :
    ∃ kept, r.links = (Chain.standardWith kept).links ∧ KeepsBuilt kept := by
  obtain ⟨-, -, -, hlinks⟩ | ⟨d, -, -, -, hlinks⟩ | ⟨d, g, k, t, hseeded, -, -, hlinks⟩ :=
    h.beginning hblock
  · exact ⟨memo, hlinks, hmemo⟩
  · exact ⟨memo, hlinks, hmemo⟩
  · refine ⟨some ⟨(c.prepare s).creation.runId, g⟩, hlinks, ?_⟩
    intro m hm
    cases hm
    exact hseeded.built hmemo

/-- Every run takes its creation on its way. -/
theorem precedes (h : Ending memo c s r) (hblock : c.BlockSetsVars) : c.Precedes r.creation := by
  obtain ⟨-, hcreation, -, -⟩ | ⟨d, -, hcreation, -, -⟩ | ⟨d, g, k, t, hseeded, hway, -, -⟩ :=
    h.beginning hblock
  · rw [hcreation]
    exact Creation.precedes_of_pipeline (.refl _)
  · rw [hcreation]
    exact ((Creation.preparation c s).undecided hblock).1
  · exact (hseeded.precedes hblock).1.trans hway

/-- **Without a definition a run takes no number; any other run takes the number of
its pipeline and no other.** -/
theorem number (h : Ending memo c s r) (hblock : c.BlockSetsVars) :
    (c.definition = none ∧ r.creation.pipeline.iid = c.pipeline.iid ∧
      r.stores.sequences = s.sequences) ∨
    (c.definition ≠ none ∧ r.creation.pipeline.iid = (c.numbering s).pipeline.iid ∧
      r.stores.sequences = (c.numbering s).stores.sequences) := by
  obtain ⟨hdefinition, hcreation, hstores, -⟩ | ⟨d, hdefinition, hcreation, hstores, -⟩ |
    ⟨d, g, k, t, hseeded, hway, hsequences, -⟩ := h.beginning hblock
  · rw [hcreation, hstores]
    exact .inl ⟨hdefinition, rfl, rfl⟩
  · obtain ⟨hiid, hsequences⟩ := (Creation.preparation c s).number hblock
    rw [hcreation, hstores, hdefinition]
    exact .inr ⟨nofun, hiid, hsequences⟩
  · -- the links behind the first one keep the number that the pipeline has
    obtain ⟨⟨n, hn⟩, hiid, hsequences'⟩ := hseeded.number hblock
    rw [hseeded.definition]
    refine .inr ⟨nofun, ?_, hsequences.trans hsequences'⟩
    rw [hway.pipeline.iid n hn, ← hiid, hn]

/-- A run takes no number, or it takes the next one for a pipeline that had none. -/
theorem number_cases (h : Ending memo c s r) (hblock : c.BlockSetsVars) :
    (r.creation.pipeline.iid = c.pipeline.iid ∧ r.stores.sequences = s.sequences) ∨
    (c.pipeline.iid = none ∧ ∃ n, r.creation.pipeline.iid = some n ∧
      s.sequences.next (.pipelines c.pipeline.projectId) = (.ok n, r.stores.sequences)) := by
  obtain ⟨-, hiid, hsequences⟩ | ⟨-, hiid, hsequences⟩ := h.number hblock
  · exact .inl ⟨hiid, hsequences⟩
  · unfold Creation.numbering at hiid hsequences
    obtain ⟨n, -, htake⟩ | ⟨-, e, htake⟩ | ⟨hnone, n, sequences, hnext, htake⟩ :=
      c.pipeline.takeNumber_cases s
    · rw [htake] at hiid hsequences
      exact .inl ⟨hiid, hsequences⟩
    · rw [htake] at hiid hsequences
      exact .inl ⟨hiid, hsequences⟩
    · rw [htake] at hiid hsequences
      exact .inr ⟨hnone, n, hiid, by rw [hnext, hsequences]⟩

/-- **A run does not come to the repository, or the repository refuses the record, or
it takes the record and the run is complete.** -/
theorem attempt (h : Ending memo c s r) (hblock : c.BlockSetsVars) :
    (r.isComplete = false ∧ s.SameRepository r.stores ∧
      ∀ e, r.result = .error e → c.pipeline.SameVerdict r.creation.pipeline) ∨
    (r.isComplete = false ∧ c.pipeline.SameVerdict r.creation.pipeline ∧
      ∃ fault : RepositoryFault, r.stores.repository = s.repository.burning fault.burnt ∧
        r.stores.calls = s.calls ++ fault.attempted) ∨
    (r.isComplete = true ∧ ∃ d g k t, Ready memo c s d g k t ∧ g.size ≠ 0 ∧
      r.creation = k.blockDeferred.created s.repository.nextId ∧
      r.stores.repository = s.repository.adding (.ofGraph r.creation.pipeline g) ∧
      r.stores.calls = s.calls ++ [.begin, .insert, .commit]) := by
  cases h with
  | undefined trace definition => exact .inl ⟨rfl, .refl s, fun _ _ => .refl _⟩
  | unprepared trace definition refused =>
      obtain ⟨-, hundecided⟩ := (Creation.preparation c s).undecided hblock
      exact .inl ⟨rfl, hundecided.repository, fun _ _ => hundecided.verdict⟩
  -- up to here the run is aborted, from here on it halts: no error to account for
  | haltedAtSeed trace seeded mistaken => exact .inl ⟨rfl, (seeded.precedes hblock).2, nofun⟩
  | haltedAtRules trace seeded clean verdict =>
      exact .inl ⟨rfl, (seeded.precedes hblock).2, nofun⟩
  | haltedAtBlock trace passed mistaken =>
      exact .inl ⟨rfl, (passed.toSeeded.precedes hblock).2, nofun⟩
  | haltedAtCreate trace ready empty =>
      exact .inl ⟨rfl, (ready.toSeeded.precedes hblock).2, nofun⟩
  | @unpersisted trace d g k t fault ready nonempty faulty =>
      have hundecided := ready.undecided hblock
      refine .inr (.inl ⟨rfl, hundecided.verdict, fault, ?_, ?_⟩)
      -- what the last link finds in the repository is what was there before the run
      · show t.repository.burning fault.burnt = _
        rw [hundecided.repository.repository]
      · show t.calls ++ fault.attempted = _
        rw [hundecided.repository.calls]
  | @complete trace d g k t ready nonempty healthy =>
      have hundecided := ready.undecided hblock
      refine .inr (.inr ⟨rfl, d, g, k, t, ready, nonempty, ?_, ?_, ?_⟩)
      · show k.blockDeferred.created t.repository.nextId = _
        rw [hundecided.repository.repository]
      · -- the number and the status of the pipeline do not show in its record
        show t.repository.adding (.ofGraph k.blockDeferred.pipeline g) = _
        rw [hundecided.repository.repository]
        rfl
      · show t.calls ++ [.begin, .insert, .commit] = _
        rw [hundecided.repository.calls]

/-- **A complete run adds the record of a pipeline with its number and a valid graph
that has jobs; any other run adds no record.** -/
theorem repository (h : Ending memo c s r) (hblock : c.BlockSetsVars) (hmemo : KeepsBuilt memo) :
    (r.isComplete = false ∧ ∃ n, r.stores.repository = s.repository.burning n) ∨
    (r.isComplete = true ∧ ∃ g, g.Built ∧ g.isValid = true ∧ g.size ≠ 0 ∧
      (∃ n, r.creation.pipeline.iid = some n) ∧
      r.stores.repository = s.repository.adding (.ofGraph r.creation.pipeline g)) := by
  obtain ⟨hcomplete, hsame, -⟩ | ⟨hcomplete, -, fault, hrepository, -⟩ |
    ⟨hcomplete, d, g, k, t, hready, hsize, hcreation, hrepository, -⟩ := h.attempt hblock
  · exact .inl ⟨hcomplete, 0, hsame.repository⟩
  · exact .inl ⟨hcomplete, fault.burnt, hrepository⟩
  · have hseeded := hready.toSeeded
    obtain ⟨⟨n, hn⟩, -, -⟩ := hseeded.number hblock
    have hiid : r.creation.pipeline.iid = some n := by
      rw [hcreation]
      exact (hseeded.precedes_blockDeferred hblock).pipeline.iid n hn
    exact .inr ⟨hcomplete, g, hseeded.built hmemo, (hseeded.attached hready.clean).1, hsize,
      ⟨n, hiid⟩, hrepository⟩

end Ending

end CiPipeline
