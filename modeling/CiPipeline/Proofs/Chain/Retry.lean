/-
  CiPipeline.Proofs.Chain.Retry
  ─────────────────────────────
  **An aborted run does no harm to the next one.**

  A run that the stores have aborted leaves the creation somewhere on its way: with
  nothing done, with its number, or at the repository with everything done but the
  record.  Whatever has been done by then is found when the creation is run again
  (`Settled`), so a run in stores that work comes to the same end as if there had
  been no attempt before it, up to the numbers of the records (`Ending.retried`).
-/
import CiPipeline.Proofs.Chain.Decision

namespace CiPipeline

open Creation (Seeded Passed Ready Recalls)

/-! ## §1. Runs that come to the same. -/

/-- What a run comes to, whatever has been told and kept on the way. -/
def Run.upshot {L : Type} (r : Run L) : Except CreationError Outcome × Creation × Stores :=
  (r.result, r.creation, r.stores)

/-- What a step comes to, whatever has been told on the way. -/
def Work.upshot (w : Work) : Except CreationError Unit × Creation × Stores :=
  (w.result, w.creation, w.stores)

/-- The attributes of a run show in its trace only. -/
theorem Chain.runFrom_upshot {L : Type} [Link L] (a a' : RunAttributes) (performed : List String)
    (links : List L) (c : Creation) (s : Stores) :
    (runFrom a performed links c s).upshot = (runFrom a' performed links c s).upshot := by
  induction links generalizing performed c s with
  | nil => rfl
  | cons link links ih =>
      have hrest := ih (performed ++ [Link.name link]) (Link.work link c s).creation
        (Link.work link c s).stores
      unfold runFrom
      dsimp only
      cases (Link.work link c s).result with
      | error e => rfl
      | ok u =>
          dsimp only
          split
          case isTrue => rfl
          case isFalse => exact hrest

namespace Creation

variable [Regex.Engine] {memo memo' : Option GraphMemo} {c c' k : Creation} {s s' t : Stores}
  {d d' : Definition} {g g' : Graph}

/-- Two creations that become the same one when they are seeded end in the same way. -/
theorem Seeded.upshot_eq (h : Seeded memo c s d g k t) (h' : Seeded memo' c' s' d' g' k t) :
    ((Chain.standardWith memo).run c s).upshot =
      ((Chain.standardWith memo').run c' s').upshot := by
  obtain ⟨notes, hwork⟩ := work_seed h
  obtain ⟨notes', hwork'⟩ := work_seed h'
  show (Chain.runFrom _ [] (Chain.standardWith memo).links c s).upshot =
    (Chain.runFrom _ [] (Chain.standardWith memo').links c' s').upshot
  cases hclean : k.pipeline.hasErrors with
  | true =>
      obtain ⟨trace, hrun⟩ := Chain.runFrom_of_halts hwork hclean
      obtain ⟨trace', hrun'⟩ := Chain.runFrom_of_halts hwork' hclean
      unfold Chain.standardWith
      rw [hrun, hrun']
      rfl
  | false =>
      -- behind the first link both runs are one, up to the attributes in the trace
      obtain ⟨trace, hrun⟩ := Chain.runFrom_of_goesOn hwork hclean ⟨_, rfl⟩
      obtain ⟨trace', hrun'⟩ := Chain.runFrom_of_goesOn hwork' hclean ⟨_, rfl⟩
      unfold Chain.standardWith
      rw [hrun, hrun']
      exact Chain.runFrom_upshot _ _ _ _ k t

/-- A run on a creation that is not prepared comes to what the preparation comes to. -/
theorem upshot_of_refused {e : CreationError} (hdefinition : c.definition = some d)
    (hrefused : (c.prepare s).result = .error e) :
    ((Chain.standardWith memo).run c s).upshot =
      (.error e, (c.prepare s).creation, (c.prepare s).stores) := by
  have hwork := work_seed_of_refused hdefinition hrefused memo
  obtain ⟨trace, hrun⟩ := Chain.runFrom_of_error hwork
  show (Chain.runFrom _ [] (Chain.standardWith memo).links c s).upshot = _
  unfold Chain.standardWith
  rw [hrun]
  rfl

/-- **What a run comes to depends on the preparation and on the graph.** -/
theorem upshot_of_prepare (hdefinition : c.definition = some d)
    (hdefinition' : c'.definition = some d)
    (hprepare : (c.prepare s).upshot = (c'.prepare s').upshot)
    (hgraph : ((c.prepare s).creation.graphWith memo d).1 =
      ((c'.prepare s').creation.graphWith memo' d).1) :
    ((Chain.standardWith memo).run c s).upshot =
      ((Chain.standardWith memo').run c' s').upshot := by
  obtain ⟨hresult, hrest⟩ := Prod.mk.inj hprepare
  obtain ⟨hcreation, hstores⟩ := Prod.mk.inj hrest
  cases hprepared : (c.prepare s).result with
  | error e =>
      have hprepared' := hresult.symm.trans hprepared
      rw [upshot_of_refused hdefinition hprepared, upshot_of_refused hdefinition' hprepared',
        hcreation, hstores]
  | ok u =>
      have hprepared' := hresult.symm.trans hprepared
      have hseeded : Seeded memo c s d _ _ _ := ⟨hdefinition, hprepared, rfl, rfl, rfl⟩
      have hseeded' : Seeded memo' c' s' d _ _ _ := ⟨hdefinition', hprepared', rfl, rfl, rfl⟩
      rw [hgraph, hcreation, hstores] at hseeded
      exact hseeded.upshot_eq hseeded'

/-- An executor that has kept the graph of a creation runs it as a new one does. -/
theorem Recalls.upshot_eq (hmemo : Recalls memo c) (hblock : c.BlockSetsVars)
    (hdefinition : c.definition = some d) (s : Stores) :
    ((Chain.standardWith memo).run c s).upshot = (Chain.standard.run c s).upshot := by
  have hrecalled := hmemo.graphWith_prepare hblock hdefinition s
  have hbuilt := (recalls_none c).graphWith_prepare hblock hdefinition s
  exact upshot_of_prepare hdefinition hdefinition rfl (hrecalled.trans hbuilt.symm)

end Creation

/-! ## §2. Stores that work again. -/

/-- The stores as they are, but without faults. -/
def Stores.mended (s : Stores) : Stores := { s with faults := .none }

namespace Pipeline

/-- A number that has been given would also be given without faults. -/
theorem takeNumber_mended {p : Pipeline} {s : Stores} {n : Int64}
    (h : (p.takeNumber s).result = .ok n) :
    p.takeNumber s.mended =
      { p.takeNumber s with stores := (p.takeNumber s).stores.mended } := by
  obtain ⟨m, hiid, htake⟩ | ⟨-, e, htake⟩ | ⟨hiid, m, sequences, hnext, htake⟩ :=
    p.takeNumber_cases s
  · rw [htake, takeNumber_of_iid hiid]
  · rw [htake] at h
    cases h
  · have hnumber : s.mended.nextNumber (.pipelines p.projectId) =
        (.ok m, { s with sequences := sequences }.mended) := by
      unfold Stores.nextNumber Stores.mended
      dsimp only
      rw [hnext]
      rfl
    rw [htake]
    unfold takeNumber
    rw [hiid]
    dsimp only
    rw [hnumber]

/-- A ref that has been registered would also be registered without faults. -/
theorem register_mended {p : Pipeline} {s : Stores} {r : CiRef}
    (h : (p.register s).result = .ok r) :
    p.register s.mended = { p.register s with stores := (p.register s).stores.mended } := by
  obtain ⟨r, href, hregister⟩ | ⟨-, e, hregister⟩ | ⟨href, r, refs, hfound, hregister⟩ :=
    p.register_cases s
  · rw [hregister, register_of_ciRef href]
  · rw [hregister] at h
    cases h
  · have hrefs : s.mended.register p.projectId p.refPath =
        (.ok r, { s with ciRefs := refs }.mended) := by
      unfold Stores.register Stores.mended
      dsimp only
      rw [hfound]
      rfl
    rw [hregister]
    unfold register
    rw [href]
    dsimp only
    rw [hrefs]

end Pipeline

namespace Creation

variable {memo memo' : Option GraphMemo} {c k : Creation} {s t : Stores} {d : Definition}
  {g : Graph}

/-- The number that a creation has been given is as good as one that it is given when
the stores work again. -/
theorem prepare_numbered {n : Int64} (numbered : (c.numbering s).result = .ok n) :
    ({ c with pipeline := (c.numbering s).pipeline }.prepare
        (c.numbering s).stores.mended).upshot =
      (c.prepare s.mended).upshot := by
  have hmended : c.pipeline.takeNumber s.mended = _ := Pipeline.takeNumber_mended numbered
  have hkept := Pipeline.takeNumber_of_iid (Pipeline.iid_of_takeNumber numbered)
    (c.numbering s).stores.mended
  unfold numbering at numbered hkept ⊢
  unfold prepare
  dsimp only
  rw [hkept, hmended]
  dsimp only
  rw [numbered]
  dsimp only
  -- from here on the two preparations differ in their notes only
  cases ((c.pipeline.takeNumber s).pipeline.register
      (c.pipeline.takeNumber s).stores.mended).result with
  | error e => rfl
  | ok r =>
      dsimp only
      split <;> rfl

/-- A preparation that has been refused is made up for when the stores work again. -/
theorem prepare_refused {e : CreationError} (h : (c.prepare s).result = .error e) :
    ((c.prepare s).creation.prepare (c.prepare s).stores.mended).upshot =
      (c.prepare s.mended).upshot := by
  have hprepared := c.preparation s
  generalize c.prepare s = w at h hprepared ⊢
  cases hprepared with
  | unnumbered notes refused =>
      -- nothing has been done
      have htake : c.numbering s = _ := Pipeline.takeNumber_of_refused refused
      rw [htake]
      rfl
  | unregistered notes numbered refused =>
      -- only the number has been given
      have hregister : c.registering s = _ := Pipeline.register_of_refused refused
      rw [hregister]
      exact prepare_numbered numbered
  | prepared notes numbered registered => cases h

/-- A preparation that has been done would also be done without faults. -/
theorem prepare_mended (h : (c.prepare s).result = .ok ()) :
    (c.prepare s.mended).upshot =
      (.ok (), (c.prepare s).creation, (c.prepare s).stores.mended) := by
  have hprepared := c.preparation s
  have hprepared' := c.preparation s.mended
  generalize c.prepare s = w at h hprepared ⊢
  generalize c.prepare s.mended = w' at hprepared' ⊢
  cases hprepared with
  | unnumbered notes refused => cases h
  | unregistered notes numbered refused => cases h
  | @prepared n r notes numbered registered =>
      have hnumbering : c.numbering s.mended = _ := Pipeline.takeNumber_mended numbered
      have hregistering : c.registering s.mended =
          { c.registering s with stores := (c.registering s).stores.mended } := by
        unfold registering
        rw [hnumbering]
        exact Pipeline.register_mended registered
      cases hprepared' with
      | unnumbered notes' refused =>
          rw [hnumbering] at refused
          cases numbered.symm.trans refused
      | unregistered notes' numbered' refused =>
          rw [hregistering] at refused
          cases registered.symm.trans refused
      | prepared notes' numbered' registered' =>
          rw [hregistering]
          rfl

/-- A preparation that is done has protected a creation with a number and a registered
ref, and has given its seed block the first chance. -/
theorem prepare_of_ok (h : (c.prepare s).result = .ok ()) :
    ∃ m : Creation, c.Precedes m ∧ (∃ n, m.pipeline.iid = some n) ∧
      (∃ r, m.pipeline.ciRef = some r) ∧ (c.prepare s).creation = m.protect.blockAtOnce := by
  have hprepared := c.preparation s
  generalize c.prepare s = w at h hprepared ⊢
  cases hprepared with
  | unnumbered notes refused => cases h
  | unregistered notes numbered refused => cases h
  | @prepared n r notes numbered registered =>
      have hiid := Pipeline.iid_of_takeNumber numbered
      exact ⟨{ c with pipeline := (c.registering s).pipeline },
        precedes_of_pipeline (c.registering_undecided s).precedes,
        ⟨n, (Pipeline.register_iid _ _).1.trans hiid⟩,
        ⟨r, Pipeline.ciRef_of_register registered⟩, rfl⟩

variable [Regex.Engine]

/-- A ready creation is also ready, with the same outcome, when the stores work again. -/
theorem Ready.mended (h : Ready memo c s d g k t) (hblock : c.BlockSetsVars)
    (hmemo : Recalls memo c) : Ready none c s.mended d g k t.mended := by
  obtain ⟨hresult, hrest⟩ := Prod.mk.inj (prepare_mended h.prepared)
  obtain ⟨hcreation, hstores⟩ := Prod.mk.inj hrest
  have hbuilt := (recalls_none c).graphWith_prepare hblock h.definition s.mended
  have hseeded : Seeded none c s.mended d g k t.mended := by
    refine ⟨h.definition, hresult, ?_, ?_, ?_⟩
    · exact (h.toSeeded.graph_eq hblock hmemo).trans hbuilt.symm
    · rw [hcreation]
      exact h.creation
    · rw [hstores, h.stores]
  exact ⟨⟨hseeded, h.clean, h.verdict⟩, h.cleanStill⟩

/-- What a run comes to that has everything it needs. -/
theorem Ready.upshot (h : Ready memo c s d g k t) (hsize : g.size ≠ 0)
    (hhealthy : t.faults.repository = none) :
    ((Chain.standardWith memo).run c s).upshot =
      (.ok ⟨Chain.standard.names, none⟩, k.blockDeferred.created t.repository.nextId,
        { t with
          repository := t.repository.adding (.ofGraph k.blockDeferred.pipeline g)
          calls := t.calls ++ [.begin, .insert, .commit] }) := by
  obtain ⟨notes, hcreate⟩ := work_create_of_healthy h.graph_eq hsize hhealthy
  obtain ⟨trace, hrun⟩ := runFrom_of_ready h
    (Chain.runFrom_of_goesOn hcreate h.cleanStill Chain.runFrom_nil)
  show (Chain.runFrom (Chain.attributes c) [] (Chain.standardWith memo).links c s).upshot = _
  rw [hrun]
  rfl

end Creation

/-! ## §3. Creations with everything done. -/

/-- A seed block that changes nothing when it runs once more. -/
def SeedBlock.Idempotent (block : SeedBlock) : Prop :=
  ∀ p : Pipeline, block (block p) = block p

namespace Creation

/-- The seed block of a creation, if there is one, changes nothing when it runs once
more. -/
def BlockIdempotent (c : Creation) : Prop :=
  ∀ block, c.seedBlock = some block → SeedBlock.Idempotent block

/-- Everything has been done for a creation but its record: another run finds its
number, its ref and its protection, and its seed block has nothing to change. -/
structure Settled [Regex.Engine] (c : Creation) (d : Definition) (g : Graph) : Prop where
  definition : c.definition = some d
  graph : g = c.graphOf d.stages
  valid : g.isValid = true
  clean : c.pipeline.hasErrors = false
  verdict : rejection? (Rule.judge d.workflowRules c.pipeline.refName .always) = none
  numbered : ∃ n, c.pipeline.iid = some n
  registered : ∃ r, c.pipeline.ciRef = some r
  asked : ∃ l, c.lookup = some l ∧ c.pipeline.refProtected = l.answer
  seeded : ∀ block, c.seedBlock = some block → block c.pipeline = c.pipeline

variable {memo : Option GraphMemo} {c k : Creation} {s t : Stores} {d : Definition} {g : Graph}

/-- The seed block does not look at the graph. -/
theorem runBlock_withGraph (c : Creation) (g : Option Graph) :
    { c with graph := g }.runBlock.1 = { c.runBlock.1 with graph := g } := by
  unfold runBlock
  dsimp only
  split
  case h_1 => rfl
  case h_2 => rfl

/-- Whether it is deferred or not, the seed block of a creation runs once. -/
theorem blockDeferred_blockAtOnce (c : Creation) (g : Option Graph) :
    { c.blockAtOnce with graph := g }.blockDeferred = { c.runBlock.1 with graph := g } := by
  by_cases hdeferred : c.features.seedBlockAfterWorkflowRules = true
  · rw [blockAtOnce_of_deferred hdeferred, ← runBlock_withGraph]
    exact if_pos hdeferred
  · obtain ⟨p, runs, hrun, -⟩ := c.runBlock_eq
    rw [blockAtOnce_of_not_deferred hdeferred, hrun]
    exact if_neg hdeferred

/-- A creation has the answer about its ref once it is protected. -/
theorem protect_asked (c : Creation) :
    ∃ l, c.protect.lookup = some l ∧ c.protect.pipeline.refProtected = l.answer := by
  unfold protect askProtection
  cases hlookup : c.lookup with
  | some l => exact ⟨l, hlookup, rfl⟩
  | none => exact ⟨_, rfl, rfl⟩

/-- A seed block with nothing to change leaves no more than its trace. -/
theorem runBlock_of_seeded {c : Creation}
    (h : ∀ block, c.seedBlock = some block → block c.pipeline = c.pipeline) :
    ∃ runs, c.runBlock.1 = { c with blockRuns := runs } := by
  unfold runBlock
  split
  case h_1 => exact ⟨c.blockRuns, rfl⟩
  case h_2 block hblock => exact ⟨_, by rw [h block hblock]⟩

theorem Precedes.blockIdempotent {c k : Creation} (h : c.Precedes k)
    (hidempotent : c.BlockIdempotent) : k.BlockIdempotent := by
  unfold BlockIdempotent
  rw [h.seedBlock]
  exact hidempotent

/-- A seed block that has run has nothing to change when it runs again. -/
theorem runBlock_seeded {c : Creation} (hidempotent : c.BlockIdempotent) :
    ∀ block, c.runBlock.1.seedBlock = some block →
      block c.runBlock.1.pipeline = c.runBlock.1.pipeline := by
  unfold runBlock
  split
  case h_1 hnone =>
    intro block hblock
    cases hnone.symm.trans hblock
  case h_2 block hsome =>
    intro block' hblock
    cases hsome.symm.trans hblock
    exact hidempotent block hsome c.pipeline

variable [Regex.Engine]

/-- **A ready creation has everything done once its block has had its second chance.** -/
theorem Ready.settled (h : Ready memo c s d g k t) (hblock : c.BlockSetsVars)
    (hidempotent : c.BlockIdempotent) (hmemo : Recalls memo c) :
    k.blockDeferred.Settled d g := by
  obtain ⟨hvalid, hattached⟩ := h.toSeeded.attached h.clean
  obtain ⟨m, hregistered, ⟨n, hn⟩, ⟨r, hr⟩, hprepared⟩ := prepare_of_ok h.prepared
  have hbehind := h.toSeeded.precedes_blockDeferred hblock
  have hway := (h.toSeeded.precedes hblock).1.trans hbehind
  -- the creation meets its block once it is protected, and the block runs exactly once
  have hprotected := (protect_undecided m s).1
  have hmeets := hregistered.trans hprotected
  have hrun := hprotected.trans (runBlock_undecided (hmeets.blockSetsVars hblock) s).1
  have hdone : k.blockDeferred = { m.protect.runBlock.1 with graph := some g } := by
    rw [hattached, hprepared, blockDeferred_blockAtOnce]
  constructor
  case definition => exact hway.definition.trans h.definition
  case graph =>
    rw [hway.graphOf_eq]
    exact h.toSeeded.graph_eq hblock hmemo
  case valid => exact hvalid
  case clean => exact h.cleanStill
  case verdict =>
    rw [hbehind.pipeline.refName]
    exact h.verdict
  case numbered =>
    rw [hdone]
    exact ⟨n, hrun.pipeline.iid n hn⟩
  case registered =>
    rw [hdone]
    exact ⟨r, hrun.pipeline.ciRef r hr⟩
  case asked =>
    obtain ⟨l, hlookup, hanswer⟩ := m.protect_asked
    obtain ⟨p, runs, hruns, hvars⟩ := m.protect.runBlock_eq
    obtain ⟨vars, rfl⟩ := hvars (hmeets.blockSetsVars hblock)
    rw [hdone, hruns]
    exact ⟨l, hlookup, hanswer⟩
  case seeded =>
    rw [hdone]
    exact runBlock_seeded (hmeets.blockIdempotent hidempotent)

namespace Settled

/-- Protecting a settled creation changes nothing. -/
theorem protect_eq (h : c.Settled d g) : c.protect = c := by
  obtain ⟨l, hlookup, hanswer⟩ := h.asked
  unfold protect askProtection
  rw [hlookup]
  dsimp only
  rw [← hanswer]

/-- Preparing a settled creation changes nothing, whatever the stores are. -/
theorem prepare_eq (h : c.Settled d g) (s : Stores) :
    ∃ runs, (c.prepare s).upshot = (.ok (), { c with blockRuns := runs }, s) := by
  obtain ⟨n, hn⟩ := h.numbered
  obtain ⟨r, hr⟩ := h.registered
  obtain ⟨runs, hruns⟩ := runBlock_of_seeded h.seeded
  unfold prepare
  dsimp only
  rw [Pipeline.takeNumber_of_iid hn]
  dsimp only
  rw [Pipeline.register_of_ciRef hr]
  dsimp only
  rw [h.protect_eq]
  split
  case isTrue => exact ⟨c.blockRuns, rfl⟩
  case isFalse =>
    refine ⟨runs, ?_⟩
    show (Except.ok (), c.runBlock.1, s) = _
    rw [hruns]

/-- **A settled creation is ready, and nothing about its pipeline changes any more.** -/
theorem ready (h : c.Settled d g) (s : Stores) :
    ∃ k, Ready none c s d g k s ∧ k.blockDeferred.pipeline = c.pipeline := by
  obtain ⟨runs, hprepare⟩ := h.prepare_eq s
  obtain ⟨hresult, hrest⟩ := Prod.mk.inj hprepare
  obtain ⟨hcreation, hstores⟩ := Prod.mk.inj hrest
  -- the graph is built and attached once more
  have hseeded : Seeded none c s d g { c with blockRuns := runs, graph := some g } s := by
    refine ⟨h.definition, hresult, ?_, ?_, hstores.symm⟩
    · have hbuilt := (recalls_none { c with blockRuns := runs }).graphWith_eq h.definition
      rw [hcreation, hbuilt]
      exact h.graph
    · rw [hcreation, attach_of_valid h.valid]
  have hstill : { c with blockRuns := runs, graph := some g }.blockDeferred.pipeline =
      c.pipeline := by
    obtain ⟨runs', hruns⟩ := runBlock_of_seeded (c := { c with blockRuns := runs, graph := some g })
      h.seeded
    unfold blockDeferred
    split
    case isTrue => rw [hruns]
    case isFalse => rfl
  refine ⟨_, ⟨⟨hseeded, h.clean, h.verdict⟩, ?_⟩, hstill⟩
  rw [hstill]
  exact h.clean

end Settled

end Creation

/-! ## §4. Runs that are alike. -/

/-- The pipeline without the number of its record. -/
def Pipeline.unnumbered (p : Pipeline) : Pipeline := { p with id := none }

/-- The record without its number. -/
def StoredPipeline.unnumbered (r : StoredPipeline) : StoredPipeline := { r with id := none }

/-- Two runs answer the same and leave the same behind, up to the numbers of the records
that they add to those before. -/
structure Run.Alike (before : List StoredPipeline) (r r' : Run CreationLink) : Prop where
  result : r.result = r'.result
  /-- Everything but the number of the record: the number within the project, the registered
  ref, the protection, the variables, the status and the errors. -/
  pipeline : r.creation.pipeline.unnumbered = r'.creation.pipeline.unnumbered
  sequences : r.stores.sequences = r'.stores.sequences
  ciRefs : r.stores.ciRefs = r'.stores.ciRefs
  /-- Whatever the runs add is the same, up to its number. -/
  records : ∃ added added', r.stores.repository.pipelines = before ++ added ∧
    r'.stores.repository.pipelines = before ++ added' ∧
    added.map (·.unnumbered) = added'.map (·.unnumbered)

namespace Run.Alike

variable {before : List StoredPipeline} {r r' r'' : Run CreationLink}

/-- Runs that come to the same are alike. -/
theorem of_upshot (h : r.upshot = r'.upshot) {added : List StoredPipeline}
    (hadded : r'.stores.repository.pipelines = before ++ added) :
    Run.Alike before r r' := by
  obtain ⟨hresult, hrest⟩ := Prod.mk.inj h
  obtain ⟨hcreation, hstores⟩ := Prod.mk.inj hrest
  refine ⟨hresult, by rw [hcreation], by rw [hstores], by rw [hstores], added, added, ?_, hadded,
    rfl⟩
  rw [hstores]
  exact hadded

theorem trans (h : Run.Alike before r r') (h' : Run.Alike before r' r'') :
    Run.Alike before r r'' := by
  obtain ⟨added, added', hadded, hadded', hsame⟩ := h.records
  obtain ⟨again, added'', hagain, hadded'', hsame'⟩ := h'.records
  have hmiddle : added' = again := List.append_cancel_left (hadded'.symm.trans hagain)
  rw [hmiddle] at hsame
  exact ⟨h.result.trans h'.result, h.pipeline.trans h'.pipeline, h.sequences.trans h'.sequences,
    h.ciRefs.trans h'.ciRefs, added, added'', hadded, hadded'', hsame.trans hsame'⟩

end Run.Alike

namespace Ending

variable [Regex.Engine] {memo : Option GraphMemo} {c : Creation} {s : Stores} {r : Run CreationLink}

/-- A run adds its records behind those that are there. -/
theorem pipelines_eq_append (h : Ending memo c s r) (hblock : c.BlockSetsVars) :
    ∃ added, r.stores.repository.pipelines = s.repository.pipelines ++ added := by
  have hatomic := h.atomic hblock
  cases hcomplete : r.isComplete with
  | true =>
      obtain ⟨g, id, -, hadded, -⟩ := hatomic.persisted hcomplete
      exact ⟨_, hadded⟩
  | false => exact ⟨[], by rw [hatomic.unpersisted hcomplete, List.append_nil]⟩

/-- What a run keeps is recalled when the creation is run again. -/
theorem recalls (h : Ending memo c s r) (hblock : c.BlockSetsVars) (hmemo : Recalls memo c) :
    ∃ kept, r.links = (Chain.standardWith kept).links ∧ Recalls kept r.creation := by
  have hway := h.precedes hblock
  obtain ⟨-, -, -, hlinks⟩ | ⟨d, -, -, -, hlinks⟩ | ⟨d, g, k, t, hseeded, -, -, hlinks⟩ :=
    h.beginning hblock
  · exact ⟨memo, hlinks, hway.recalls hmemo⟩
  · exact ⟨memo, hlinks, hway.recalls hmemo⟩
  · refine ⟨_, hlinks, ?_⟩
    rintro m d' hm - hdefinition
    cases hm
    -- the definition is still the one that the graph has been built from
    rw [hway.definition, hseeded.definition] at hdefinition
    cases hdefinition
    rw [hway.graphOf_eq]
    exact hseeded.graph_eq hblock hmemo

/-- **After a run that has been aborted, the creation comes in working stores to what it
would have come to without that run**, up to the number of its record. -/
theorem retried (h : Ending memo c s r) {d : Definition} (hdefinition : c.definition = some d)
    (hblock : c.BlockSetsVars) (hidempotent : c.BlockIdempotent) (hmemo : Recalls memo c)
    {e : CreationError} (haborted : r.result = .error e) :
    Run.Alike s.repository.pipelines (Chain.standard.run r.creation r.stores.mended)
      (Chain.standard.run c s.mended) := by
  cases h with
  | undefined trace undefined => cases hdefinition.symm.trans undefined
  | unprepared trace definition refused =>
      have hprepare := Creation.prepare_refused refused
      obtain ⟨-, hrest⟩ := Prod.mk.inj hprepare
      have hway := ((Creation.preparation c s).undecided hblock).1
      have hgraph := congrArg (fun k => (k.graphWith none d).1) (Prod.mk.inj hrest).1
      have hsame := Creation.upshot_of_prepare (hway.definition.trans hdefinition) hdefinition
        hprepare hgraph
      obtain ⟨added, hadded⟩ := (run_ending none c s.mended).pipelines_eq_append hblock
      exact .of_upshot hsame hadded
  | haltedAtSeed trace seeded mistaken => cases haborted
  | haltedAtRules trace seeded clean verdict => cases haborted
  | haltedAtBlock trace passed mistaken => cases haborted
  | haltedAtCreate trace ready empty => cases haborted
  | @unpersisted trace d' g k t fault ready nonempty faulty =>
      -- both runs are complete, and their pipelines were the same before the last link
      have hrepository := (ready.undecided hblock).repository.repository
      obtain ⟨k', hready, hpipeline⟩ := (ready.settled hblock hidempotent hmemo).ready
        { t with
          repository := t.repository.burning fault.burnt
          calls := t.calls ++ fault.attempted }.mended
      have hagain : (Chain.standard.run k.blockDeferred _).upshot = _ :=
        hready.upshot nonempty rfl
      have hmended : (Chain.standard.run c s.mended).upshot = _ :=
        (ready.mended hblock hmemo).upshot nonempty rfl
      obtain ⟨hresult, hrest⟩ := Prod.mk.inj hagain
      obtain ⟨hcreation, hstores⟩ := Prod.mk.inj hrest
      obtain ⟨hresult', hrest'⟩ := Prod.mk.inj hmended
      obtain ⟨hcreation', hstores'⟩ := Prod.mk.inj hrest'
      constructor
      case result => exact hresult.trans hresult'.symm
      case pipeline =>
        rw [hcreation, hcreation']
        show { k'.blockDeferred.pipeline with id := none, status := .created } = _
        rw [hpipeline]
        rfl
      case sequences =>
        rw [hstores, hstores']
        rfl
      case ciRefs =>
        rw [hstores, hstores']
        rfl
      case records =>
        rw [hstores, hstores', hpipeline, ← hrepository]
        exact ⟨_, _, rfl, rfl, rfl⟩
  | complete trace ready nonempty healthy => cases haborted

end Ending

end CiPipeline
