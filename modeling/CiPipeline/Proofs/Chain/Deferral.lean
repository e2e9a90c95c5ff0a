/-
  CiPipeline.Proofs.Chain.Deferral
  ────────────────────────────────
  **A deferred seed block runs later, and to the same effect.**

  A creation is run twice, behind a gate that is closed for its project and behind one
  that is open.  Once it is prepared, the first run is one seed block ahead (`Ahead`);
  what comes in between looks at nothing that the block changes, and when the second
  run has caught up both are the same.  Only a chain that halts in between ends before
  that.  Main statement: `standard_run_gated`.
-/
import CiPipeline.Proofs.Chain.Lockstep
import CiPipeline.Proofs.Chain.Retry

namespace CiPipeline

open Creation (Seeded)

/-! ## §1. Pipelines that are the same but for their variables. -/

/-- Only the variables of two pipelines may differ. -/
def Pipeline.SameButVars (p q : Pipeline) : Prop := ∃ vars, q = { p with vars := vars }

namespace Pipeline.SameButVars

variable {p q : Pipeline}

theorem of_eq (h : q = p) : p.SameButVars q := ⟨p.vars, h⟩

theorem symm (h : p.SameButVars q) : q.SameButVars p := by
  obtain ⟨vars, rfl⟩ := h
  exact ⟨p.vars, rfl⟩

theorem iid (h : p.SameButVars q) : q.iid = p.iid := by
  obtain ⟨vars, rfl⟩ := h
  rfl

theorem errors (h : p.SameButVars q) : q.errors = p.errors := by
  obtain ⟨vars, rfl⟩ := h
  rfl

theorem hasErrors (h : p.SameButVars q) : q.hasErrors = p.hasErrors := by
  unfold Pipeline.hasErrors
  rw [h.errors]

theorem refName (h : p.SameButVars q) : q.refName = p.refName := by
  obtain ⟨vars, rfl⟩ := h
  rfl

theorem reject (h : p.SameButVars q) (message : String) (reason : FailureReason) :
    (p.reject message reason).SameButVars (q.reject message reason) := by
  obtain ⟨vars, rfl⟩ := h
  refine ⟨vars, ?_⟩
  unfold Pipeline.reject
  split <;> rfl

end Pipeline.SameButVars

namespace Creation

/-- The seed block of a creation changes nothing but variables. -/
theorem runBlock_sameButVars {c : Creation} (h : c.BlockSetsVars) :
    c.pipeline.SameButVars c.runBlock.1.pipeline := by
  obtain ⟨p, runs, hrun, hvars⟩ := c.runBlock_eq
  rw [hrun]
  exact hvars h

/-! ## §2. Other gates. -/

/-- The creation under other gates. -/
def gatedBy (c : Creation) (f : Features) : Creation :=
  { c with settings := c.settings.gatedBy f, features := f.resolve c.project.id }

/-- The question about the ref does not depend on gates. -/
theorem askProtection_gatedBy (c : Creation) (f : Features) :
    (c.gatedBy f).askProtection = (c.askProtection.1, c.askProtection.2.gatedBy f) := by
  unfold askProtection
  cases hlookup : c.lookup with
  | some l =>
      have hgated : (c.gatedBy f).lookup = some l := hlookup
      rw [hgated]
  | none =>
      have hgated : (c.gatedBy f).lookup = none := hlookup
      rw [hgated]
      rfl

theorem protect_gatedBy (c : Creation) (f : Features) :
    (c.gatedBy f).protect = c.protect.gatedBy f := by
  unfold protect
  rw [askProtection_gatedBy]
  rfl

/-- Gates say when the seed block runs, and nothing about what it does. -/
theorem runBlock_gatedBy (c : Creation) (f : Features) :
    (c.gatedBy f).runBlock.1 = c.runBlock.1.gatedBy f := by
  unfold runBlock gatedBy
  dsimp only
  split
  case h_1 => rfl
  case h_2 => rfl

/-- A graph depends on the ref, on the limit of needs, and on what has been kept for the
creation. -/
theorem graphWith_congr [Regex.Engine] {c c' : Creation} (hrunId : c'.runId = c.runId)
    (hrefName : c'.pipeline.refName = c.pipeline.refName)
    (hmaxNeeds : c'.settings.maxNeeds = c.settings.maxNeeds) (memo : Option GraphMemo)
    (d : Definition) : c'.graphWith memo d = c.graphWith memo d := by
  unfold graphWith graphOf
  rw [hrunId, hrefName, hmaxNeeds]

theorem prepare_of_unnumbered {c : Creation} {s : Stores} {e : SequenceError}
    (refused : (c.numbering s).result = .error e) :
    (c.prepare s).upshot = (.error (.allocation e), { c with pipeline := (c.numbering s).pipeline },
      (c.numbering s).stores) := by
  have hprepared := c.preparation s
  generalize c.prepare s = w at hprepared ⊢
  cases hprepared with
  | unnumbered notes refused' => cases refused.symm.trans refused'; rfl
  | unregistered notes numbered _ => cases refused.symm.trans numbered
  | prepared notes numbered _ => cases refused.symm.trans numbered

theorem prepare_of_unregistered {c : Creation} {s : Stores} {n : Int64} {e : StoreError}
    (numbered : (c.numbering s).result = .ok n) (refused : (c.registering s).result = .error e) :
    (c.prepare s).upshot = (.error (.persistence e),
      { c with pipeline := (c.registering s).pipeline }, (c.registering s).stores) := by
  have hprepared := c.preparation s
  generalize c.prepare s = w at hprepared ⊢
  cases hprepared with
  | unnumbered notes refused' => cases numbered.symm.trans refused'
  | unregistered notes _ refused' => cases refused.symm.trans refused'; rfl
  | prepared notes _ registered => cases refused.symm.trans registered

theorem prepare_of_registered {c : Creation} {s : Stores} {n : Int64} {r : CiRef}
    (numbered : (c.numbering s).result = .ok n) (registered : (c.registering s).result = .ok r) :
    (c.prepare s).upshot = (.ok (),
      { c with pipeline := (c.registering s).pipeline }.protect.blockAtOnce,
      (c.registering s).stores) := by
  have hprepared := c.preparation s
  generalize c.prepare s = w at hprepared ⊢
  cases hprepared with
  | unnumbered notes refused => cases numbered.symm.trans refused
  | unregistered notes _ refused => cases registered.symm.trans refused
  | prepared notes _ _ => rfl

/-- A creation that is registered and protected meets its seed block under its gates. -/
theorem prepare_gatedBy {c : Creation} {s : Stores} {n : Int64} {r : CiRef}
    (numbered : (c.numbering s).result = .ok n) (registered : (c.registering s).result = .ok r)
    (f : Features) :
    ((c.gatedBy f).prepare s).upshot = (.ok (),
      ({ c with pipeline := (c.registering s).pipeline }.protect.gatedBy f).blockAtOnce,
      (c.registering s).stores) := by
  have h : ((c.gatedBy f).numbering s).result = .ok n := numbered
  have hr : ((c.gatedBy f).registering s).result = .ok r := registered
  rw [prepare_of_registered h hr, ← protect_gatedBy]
  rfl

variable {c : Creation} {f f' : Features}

/-- **Behind a closed gate and behind an open one a creation is prepared alike, or not at
all; if it is, its seed block has run behind the closed one.** -/
theorem prepare_gated (s : Stores)
    (hclosed : f.seedBlockAfterWorkflowRules.isOpenFor c.project.id = false)
    (hopen : f'.seedBlockAfterWorkflowRules.isOpenFor c.project.id = true) :
    (∃ e k k' t, ((c.gatedBy f).prepare s).upshot = (.error e, k, t) ∧
      ((c.gatedBy f').prepare s).upshot = (.error e, k', t) ∧ k'.pipeline = k.pipeline) ∨
    ∃ m t, c.Precedes m ∧ ((c.gatedBy f).prepare s).upshot = (.ok (), m.runBlock.1.gatedBy f, t) ∧
      ((c.gatedBy f').prepare s).upshot = (.ok (), m.gatedBy f', t) := by
  -- numbers and refs are given without a look at the gates
  cases hnumber : (c.numbering s).result with
  | error e =>
      have h : ((c.gatedBy f).numbering s).result = .error e := hnumber
      have h' : ((c.gatedBy f').numbering s).result = .error e := hnumber
      exact .inl ⟨_, _, _, _, prepare_of_unnumbered h, prepare_of_unnumbered h', rfl⟩
  | ok n =>
      have h : ((c.gatedBy f).numbering s).result = .ok n := hnumber
      have h' : ((c.gatedBy f').numbering s).result = .ok n := hnumber
      cases hregister : (c.registering s).result with
      | error e =>
          have hr : ((c.gatedBy f).registering s).result = .error e := hregister
          have hr' : ((c.gatedBy f').registering s).result = .error e := hregister
          exact .inl ⟨_, _, _, _, prepare_of_unregistered h hr, prepare_of_unregistered h' hr', rfl⟩
      | ok r =>
          have hway := (precedes_of_pipeline (c.registering_undecided s).precedes).trans
            (protect_undecided _ s).1
          refine .inr ⟨_, (c.registering s).stores, hway, ?_, ?_⟩
          · rw [prepare_gatedBy hnumber hregister, blockAtOnce_of_not_deferred, runBlock_gatedBy]
            show ¬f.seedBlockAfterWorkflowRules.isOpenFor _ = true
            rw [hway.project, hclosed]
            exact Bool.false_ne_true
          · rw [prepare_gatedBy hnumber hregister, blockAtOnce_of_deferred]
            show f'.seedBlockAfterWorkflowRules.isOpenFor _ = true
            rw [hway.project, hopen]

/-! ## §3. One seed block ahead. -/

/-- Two creations without errors have the same before them, but for the seed block: the first
one has run it, the second one is yet to run it. -/
structure Ahead (d : Definition) (g : Graph) (k k' : Creation) : Prop where
  definition : k.definition = some d
  definition' : k'.definition = some d
  graph : k.graph = some g
  graph' : k'.graph = some g
  atOnce : ¬k.features.seedBlockAfterWorkflowRules = true
  deferred : k'.features.seedBlockAfterWorkflowRules = true
  setsVars : k'.BlockSetsVars
  pipeline : k'.runBlock.1.pipeline = k.pipeline
  clean : k.pipeline.hasErrors = false

theorem Ahead.sameButVars {d : Definition} {g : Graph} {k k' : Creation} (h : Ahead d g k k') :
    k.pipeline.SameButVars k'.pipeline := by
  rw [← h.pipeline]
  exact (runBlock_sameButVars h.setsVars).symm

theorem Ahead.clean' {d : Definition} {g : Graph} {k k' : Creation} (h : Ahead d g k k') :
    k'.pipeline.hasErrors = false :=
  h.sameButVars.hasErrors.trans h.clean

/-- Once the graph is attached, the creation behind the closed gate is one seed block ahead. -/
theorem ahead_gated {m : Creation} {d : Definition} (hsets : m.BlockSetsVars)
    (hdefinition : m.definition = some d)
    (hclosed : f.seedBlockAfterWorkflowRules.isOpenFor m.project.id = false)
    (hopen : f'.seedBlockAfterWorkflowRules.isOpenFor m.project.id = true) (g : Graph)
    (hclean : m.runBlock.1.pipeline.hasErrors = false) :
    Ahead d g { m.runBlock.1.gatedBy f with graph := some g }
      { m.gatedBy f' with graph := some g } := by
  have hrun := (runBlock_undecided hsets .empty).1
  constructor
  case definition => exact hrun.definition.trans hdefinition
  case definition' => exact hdefinition
  case graph => rfl
  case graph' => rfl
  case atOnce =>
    show ¬f.seedBlockAfterWorkflowRules.isOpenFor m.runBlock.1.project.id = true
    rw [hrun.project, hclosed]
    exact Bool.false_ne_true
  case deferred => exact hopen
  case setsVars => exact hsets
  case pipeline =>
    rw [runBlock_withGraph, runBlock_gatedBy]
    rfl
  case clean => exact hclean

end Creation

/-- A chain that has halted before a deferred seed block could run. -/
def Outcome.haltedEarly (o : Outcome) : Bool :=
  o.haltedAt = some "seed" || o.haltedAt = some "evaluate_workflow_rules"

/-- What a deferred seed block may change about the creation that a run leaves behind: the
variables of the pipeline, when the chain has halted early. -/
structure Creation.SameUpToTiming (result : Except CreationError Outcome) (k k' : Creation) :
    Prop where
  sameButVars : k.pipeline.SameButVars k'.pipeline
  same : (∀ o, result = .ok o → o.haltedEarly = false) → k'.pipeline = k.pipeline

namespace Creation

variable {d : Definition} {g : Graph} {k k' : Creation}

theorem SameUpToTiming.of_eq (h : k'.pipeline = k.pipeline)
    (result : Except CreationError Outcome) : SameUpToTiming result k k' :=
  ⟨.of_eq h, fun _ => h⟩

theorem SameUpToTiming.of_early (h : k.pipeline.SameButVars k'.pipeline) {o : Outcome}
    (hearly : o.haltedEarly = true) : SameUpToTiming (.ok o) k k' :=
  ⟨h, fun hlate => absurd hearly (by rw [hlate o rfl]; exact Bool.false_ne_true)⟩

end Creation

section

variable [Regex.Engine]

/-! ## §4. Link by link, from the last one to the first. -/

/-- Seeding fails as the preparation fails. -/
theorem work_seed_of_error {c k : Creation} {s t : Stores} {d : Definition} {e : CreationError}
    (hdefinition : c.definition = some d) (h : (c.prepare s).upshot = (.error e, k, t))
    (memo : Option GraphMemo) :
    ∃ notes, Link.work (CreationLink.seed memo) c s = ⟨.error e, .seed memo, k, t, notes⟩ := by
  obtain ⟨hresult, hrest⟩ := Prod.mk.inj h
  obtain ⟨rfl, rfl⟩ := Prod.mk.inj hrest
  exact ⟨_, work_seed_of_refused hdefinition hresult memo⟩

/-- Seeding attaches the graph to what has been prepared. -/
theorem work_seed_of_ok {c k : Creation} {s t : Stores} {d : Definition}
    (hdefinition : c.definition = some d) (h : (c.prepare s).upshot = (.ok (), k, t))
    (memo : Option GraphMemo) :
    ∃ next notes, Link.work (CreationLink.seed memo) c s =
      ⟨.ok (), next, (k.attach (k.graphWith memo d).1).1, t, notes⟩ := by
  obtain ⟨hresult, hrest⟩ := Prod.mk.inj h
  obtain ⟨rfl, rfl⟩ := Prod.mk.inj hrest
  obtain ⟨notes, hwork⟩ := work_seed ⟨hdefinition, hresult, rfl, rfl, rfl⟩
  exact ⟨_, notes, hwork⟩

namespace Run

open Creation (Ahead SameUpToTiming)
open Chain (runFrom)

variable {d : Definition} {g : Graph} {k k' : Creation} {t : Stores} {a : RunAttributes}

/-- The last link meets the same pipeline twice. -/
theorem lockstep_create (hgraph : k.graph = some g) (hgraph' : k'.graph = some g)
    (hclean : k.pipeline.hasErrors = false) (hpipeline : k'.pipeline = k.pipeline) :
    Lockstep SameUpToTiming
      (runFrom a ["seed", "evaluate_workflow_rules", "seed_block"] [CreationLink.create] k t)
      (runFrom a ["seed", "evaluate_workflow_rules", "seed_block"] [CreationLink.create] k' t) := by
  by_cases hsize : g.size = 0
  · have h := work_create_of_empty hgraph hsize t
    have h' := work_create_of_empty hgraph' hsize t
    have hsame : (k'.reject emptyMessage .configError).pipeline =
        (k.reject emptyMessage .configError).pipeline :=
      congrArg (·.reject emptyMessage .configError) hpipeline
    exact lockstep_of_halts rfl h h' (Creation.hasErrors_reject _ _ _)
      (Creation.hasErrors_reject _ _ _) (congrArg (·.iid) hsame) (congrArg (·.errors) hsame)
      (.of_eq hsame _)
  · cases hfault : t.faults.repository with
    | some fault =>
        obtain ⟨notes, h⟩ := work_create_of_fault hgraph hsize hfault
        obtain ⟨notes', h'⟩ := work_create_of_fault hgraph' hsize hfault
        exact lockstep_of_error rfl h h' (congrArg (·.iid) hpipeline) (.of_eq hpipeline _)
    | none =>
        obtain ⟨notes, h⟩ := work_create_of_healthy hgraph hsize hfault
        obtain ⟨notes', h'⟩ := work_create_of_healthy hgraph' hsize hfault
        have hsame : (k'.created t.repository.nextId).pipeline =
            (k.created t.repository.nextId).pipeline := by
          unfold Creation.created
          dsimp only
          rw [hpipeline]
        have hclean' : k'.pipeline.hasErrors = false := by rw [hpipeline, hclean]
        rw [hpipeline] at h'
        exact lockstep_of_goesOn rfl h h' hclean hclean'
          (lockstep_nil (congrArg (·.iid) hsame) (.of_eq hsame _))

/-- Behind the deferred seed block the second run has caught up. -/
theorem lockstep_block (h : Ahead d g k k') :
    Lockstep SameUpToTiming
      (runFrom a ["seed", "evaluate_workflow_rules"] [CreationLink.seedBlock, .create] k t)
      (runFrom a ["seed", "evaluate_workflow_rules"] [CreationLink.seedBlock, .create] k' t) := by
  obtain ⟨notes, hblock⟩ := work_block k t
  obtain ⟨notes', hblock'⟩ := work_block k' t
  have hahead : k.blockDeferred = k := if_neg h.atOnce
  have hbehind : k'.blockDeferred = k'.runBlock.1 := if_pos h.deferred
  have hgraph' : k'.blockDeferred.graph = some g := k'.blockDeferred_graph.trans h.graph'
  rw [hahead] at hblock
  rw [hbehind] at hblock' hgraph'
  exact lockstep_of_goesOn rfl hblock hblock' h.clean (by rw [← h.clean, ← h.pipeline]; rfl)
    (lockstep_create h.graph hgraph' h.clean h.pipeline)

/-- The rules of the workflow do not look at variables. -/
theorem lockstep_rules (h : Ahead d g k k') :
    Lockstep SameUpToTiming
      (runFrom a ["seed"] [CreationLink.workflowRules, .seedBlock, .create] k t)
      (runFrom a ["seed"] [CreationLink.workflowRules, .seedBlock, .create] k' t) := by
  have hsame := h.sameButVars
  obtain ⟨notes, hrules⟩ := work_rules h.definition t
  obtain ⟨notes', hrules'⟩ := work_rules h.definition' t
  rw [hsame.refName] at hrules'
  cases hverdict : Creation.rejection?
      (Rule.judge d.workflowRules k.pipeline.refName .always) with
  | none =>
      rw [hverdict] at hrules hrules'
      exact lockstep_of_goesOn rfl hrules hrules' h.clean h.clean' (lockstep_block h)
  | some rejection =>
      obtain ⟨message, reason⟩ := rejection
      rw [hverdict] at hrules hrules'
      have hrejected := hsame.reject message reason
      exact lockstep_of_halts rfl hrules hrules' (Creation.hasErrors_reject _ _ _)
        (Creation.hasErrors_reject _ _ _) hrejected.iid hrejected.errors (.of_early hrejected rfl)

/-- Both creations meet the same graph, one of them with its seed block run. -/
theorem lockstep_attach {c c' m : Creation} {s s' : Stores} {f f' : Features}
    {link next next' : CreationLink} {notes notes' : List Note} (hname : link.name = "seed")
    (hseed : Link.work link c s =
      ⟨.ok (), next, ((m.runBlock.1.gatedBy f).attach g).1, t, notes⟩)
    (hseed' : Link.work link c' s' = ⟨.ok (), next', ((m.gatedBy f').attach g).1, t, notes'⟩)
    (hsets : m.BlockSetsVars) (hdefinition : m.definition = some d)
    (hclosed : f.seedBlockAfterWorkflowRules.isOpenFor m.project.id = false)
    (hopen : f'.seedBlockAfterWorkflowRules.isOpenFor m.project.id = true) :
    Lockstep SameUpToTiming
      (runFrom a [] [link, .workflowRules, .seedBlock, .create] c s)
      (runFrom a [] [link, .workflowRules, .seedBlock, .create] c' s') := by
  have hlink : Link.name link = "seed" := hname
  have hsame : m.runBlock.1.pipeline.SameButVars m.pipeline :=
    (Creation.runBlock_sameButVars hsets).symm
  cases hvalid : g.isValid with
  | false =>
      rw [Creation.attach_of_invalid hvalid] at hseed hseed'
      have hrejected := hsame.reject g.report .configError
      refine lockstep_of_halts rfl hseed hseed' (Creation.hasErrors_reject _ _ _)
        (Creation.hasErrors_reject _ _ _) hrejected.iid hrejected.errors ?_
      rw [hlink]
      apply SameUpToTiming.of_early
      · exact hrejected
      · rfl
  | true =>
      rw [Creation.attach_of_valid hvalid] at hseed hseed'
      cases hclean : m.runBlock.1.pipeline.hasErrors with
      | true =>
          -- the pipeline has brought its errors along, and both chains halt over them
          have hclean' : m.pipeline.hasErrors = true := hsame.hasErrors.trans hclean
          refine lockstep_of_halts rfl hseed hseed' hclean hclean' hsame.iid hsame.errors ?_
          rw [hlink]
          apply SameUpToTiming.of_early
          · exact hsame
          · rfl
      | false =>
          have hahead := Creation.ahead_gated hsets hdefinition hclosed hopen g hclean
          refine lockstep_of_goesOn rfl hseed hseed' hahead.clean hahead.clean' ?_
          rw [hlink]
          exact lockstep_rules hahead

/-- **The first link gives both creations the same graph, and leaves one of them a seed block
ahead.** -/
theorem lockstep_seed {c : Creation} {f f' : Features} (hblock : c.BlockSetsVars)
    (hclosed : f.seedBlockAfterWorkflowRules.isOpenFor c.project.id = false)
    (hopen : f'.seedBlockAfterWorkflowRules.isOpenFor c.project.id = true)
    (memo : Option GraphMemo) (s : Stores) :
    Lockstep SameUpToTiming (runFrom a [] (Chain.standardWith memo).links (c.gatedBy f) s)
      (runFrom a [] (Chain.standardWith memo).links (c.gatedBy f') s) := by
  cases hdefinition : c.definition with
  | none =>
      have h : (c.gatedBy f).definition = none := hdefinition
      have h' : (c.gatedBy f').definition = none := hdefinition
      have hsame : (c.gatedBy f').pipeline = (c.gatedBy f).pipeline := rfl
      exact lockstep_of_error rfl (work_seed_of_undefined h memo s)
        (work_seed_of_undefined h' memo s) (congrArg (·.iid) hsame) (.of_eq hsame _)
  | some d =>
      have hd : (c.gatedBy f).definition = some d := hdefinition
      have hd' : (c.gatedBy f').definition = some d := hdefinition
      obtain ⟨e, k, k', t, h, h', hpipeline⟩ | ⟨m, t, hway, h, h'⟩ :=
        Creation.prepare_gated s hclosed hopen
      · obtain ⟨notes, hseed⟩ := work_seed_of_error hd h memo
        obtain ⟨notes', hseed'⟩ := work_seed_of_error hd' h' memo
        exact lockstep_of_error rfl hseed hseed' (congrArg (·.iid) hpipeline)
          (.of_eq hpipeline _)
      · obtain ⟨next, notes, hseed⟩ := work_seed_of_ok hd h memo
        obtain ⟨next', notes', hseed'⟩ := work_seed_of_ok hd' h' memo
        have hsets : m.BlockSetsVars := hway.blockSetsVars hblock
        -- a block that only sets variables has no say in the graph
        have hrun := (Creation.runBlock_undecided hsets s).1
        have hgraph : (m.gatedBy f').graphWith memo d = (m.runBlock.1.gatedBy f).graphWith memo d :=
          Creation.graphWith_congr hrun.runId.symm hrun.pipeline.refName.symm
            (congrArg (·.maxNeeds) hrun.settings.symm) memo d
        rw [hgraph] at hseed'
        rw [← hway.project] at hclosed hopen
        exact lockstep_attach rfl hseed hseed' hsets (hway.definition.trans hdefinition) hclosed
          hopen

end Run

/-- **A deferred seed block changes when things are done, not what comes of them**: behind a
gate that is open for the project a run of the standard chain answers as it does behind one
that is closed, sends the same events, leaves the same stores, and leaves the same pipeline
unless the chain halts early. -/
theorem standard_run_gated {c : Creation} {f f' : Features} (hblock : c.BlockSetsVars)
    (hclosed : f.seedBlockAfterWorkflowRules.isOpenFor c.project.id = false)
    (hopen : f'.seedBlockAfterWorkflowRules.isOpenFor c.project.id = true)
    (memo : Option GraphMemo) (s : Stores) :
    Run.Lockstep Creation.SameUpToTiming ((Chain.standardWith memo).run (c.gatedBy f) s)
      ((Chain.standardWith memo).run (c.gatedBy f') s) :=
  .run rfl rfl (Run.lockstep_seed hblock hclosed hopen memo s)

end

/-- Variables that are set too late: the sample is dropped by the rules of the workflow before
a deferred seed block runs. -/
theorem standard_run_gated_sample :
    Creation.dropped.BlockSetsVars ∧
      (Gate.closed.isOpenFor Creation.dropped.project.id = false ∧
        Gate.everyone.isOpenFor Creation.dropped.project.id = true) ∧
      Run.Lockstep Creation.SameUpToTiming
        (Chain.standard.run (Creation.dropped.gatedBy ⟨.closed⟩) .empty)
        (Chain.standard.run (Creation.dropped.gatedBy ⟨.everyone⟩) .empty) ∧
      ((Chain.standard.run (Creation.dropped.gatedBy ⟨.closed⟩) .empty).creation.pipeline.vars ≠
        (Chain.standard.run (Creation.dropped.gatedBy ⟨.everyone⟩)
          .empty).creation.pipeline.vars) := by
  have hclosed : Gate.closed.isOpenFor Creation.dropped.project.id = false := by decide +kernel
  have hopen : Gate.everyone.isOpenFor Creation.dropped.project.id = true := by decide +kernel
  refine ⟨Creation.dropped_blockSetsVars, ⟨hclosed, hopen⟩, ?_, ?_⟩
  · exact standard_run_gated Creation.dropped_blockSetsVars hclosed hopen none .empty
  · decide +kernel

end CiPipeline
