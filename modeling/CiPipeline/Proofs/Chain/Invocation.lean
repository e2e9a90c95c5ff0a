/-
  CiPipeline.Proofs.Chain.Invocation
  ──────────────────────────────────
  **When the seed block is invoked, and on which pipeline.**

  Two links may invoke the seed block of a creation, the first one and the third, and a
  gate that is looked at when the creation starts says which of them.  Either way the
  block meets the creation in the same state: with its number, its registered ref and
  the answer about its ref (`Creation.enrolled`).  A run gives the block one turn or
  none (`Creation.BlockTurn`), and the way in which it ends says which (`Ending.invocation`).

  Main statement: `standard_run_invoked`.
-/
import CiPipeline.Proofs.Chain.Deferral

namespace CiPipeline

namespace Pipeline

theorem hasErrors_eq_false_iff (p : Pipeline) : p.hasErrors = false ↔ p.errors = [] := by
  unfold hasErrors
  rw [Bool.not_eq_false', List.isEmpty_iff]

/-- A rejected pipeline keeps its variables. -/
theorem reject_vars (p : Pipeline) (message : String) (reason : FailureReason) :
    (p.reject message reason).vars = p.vars := by
  unfold reject
  split <;> rfl

end Pipeline

/-! ## §1. The creation that the seed block meets. -/

namespace Creation

/-- The creation as its seed block meets it: its pipeline has its number and its
registered ref, and knows whether it is protected. -/
def enrolled (c : Creation) (s : Stores) : Creation :=
  { c with pipeline := (c.registering s).pipeline }.protect

/-- The pipeline is given its number, and its ref is registered. -/
structure Enrolls (c : Creation) (s : Stores) : Prop where
  numbered : ∃ n, (c.numbering s).result = .ok n
  registered : ∃ ref, (c.registering s).result = .ok ref

variable {memo : Option GraphMemo} {c k : Creation} {s t : Stores} {d : Definition} {g : Graph}

/-- A creation that is prepared is enrolled, and its seed block has had the first
chance. -/
theorem prepare_enrolled (h : (c.prepare s).result = .ok ()) :
    c.Enrolls s ∧ (c.prepare s).creation = (c.enrolled s).blockAtOnce := by
  have hprepared := c.preparation s
  generalize c.prepare s = w at h hprepared ⊢
  cases hprepared with
  | unnumbered notes refused => cases h
  | unregistered notes numbered refused => cases h
  | @prepared n ref notes numbered registered => exact ⟨⟨⟨n, numbered⟩, ⟨ref, registered⟩⟩, rfl⟩

/-- A creation that is not prepared is not enrolled, and has not come to its seed
block. -/
theorem prepare_unenrolled {e : CreationError} (h : (c.prepare s).result = .error e) :
    ¬c.Enrolls s ∧ (c.prepare s).creation.blockRuns = c.blockRuns := by
  have hprepared := c.preparation s
  generalize c.prepare s = w at h hprepared ⊢
  cases hprepared with
  | unnumbered notes refused =>
      refine ⟨?_, rfl⟩
      rintro ⟨⟨n, numbered⟩, -⟩
      cases refused.symm.trans numbered
  | unregistered notes numbered refused =>
      refine ⟨?_, rfl⟩
      rintro ⟨-, ⟨ref, registered⟩⟩
      cases refused.symm.trans registered
  | prepared notes numbered registered => cases h

/-- Enrolling takes a creation on its way, whatever the seed block will do. -/
theorem precedes_enrolled (c : Creation) (s : Stores) : c.Precedes (c.enrolled s) := by
  have hregistered := precedes_of_pipeline (c.registering_undecided s).precedes
  exact hregistered.trans (protect_undecided _ s).1

/-- The block is not invoked by then. -/
theorem enrolled_blockRuns (c : Creation) (s : Stores) :
    (c.enrolled s).blockRuns = c.blockRuns := by
  obtain ⟨answer, lookup, hprotect⟩ := protect_eq { c with pipeline := (c.registering s).pipeline }
  unfold enrolled
  rw [hprotect]

/-- What a seed block may rely on: the pipeline that it is given has the number that it
has taken, the ref that has been registered for it, and the answer that the creation
keeps. -/
structure Enrolled (c : Creation) (s : Stores) (lookup : Option ProtectionLookup)
    (p : Pipeline) : Prop where
  iid : ∃ n, (c.numbering s).result = .ok n ∧ p.iid = some n
  ciRef : ∃ ref, (c.registering s).result = .ok ref ∧ p.ciRef = some ref
  refProtected : ∃ l, lookup = some l ∧ p.refProtected = l.answer

theorem Enrolls.enrolled (h : c.Enrolls s) :
    c.Enrolled s (c.enrolled s).lookup (c.enrolled s).pipeline := by
  obtain ⟨⟨n, numbered⟩, ⟨ref, registered⟩⟩ := h
  have hprotected := (protect_undecided { c with pipeline := (c.registering s).pipeline } s).1
  constructor
  case iid =>
    have hiid : (c.registering s).pipeline.iid = some n :=
      (Pipeline.register_iid _ _).1.trans (Pipeline.iid_of_takeNumber numbered)
    exact ⟨n, numbered, hprotected.pipeline.iid n hiid⟩
  case ciRef =>
    have href := Pipeline.ciRef_of_register registered
    exact ⟨ref, registered, hprotected.pipeline.ciRef ref href⟩
  case refProtected => exact protect_asked _

/-! ## §2. The turn of the seed block. -/

/-- What the invocation of the block leaves behind. -/
theorem enrolled_runBlock {block : SeedBlock} (hblock : c.seedBlock = some block) (s : Stores) :
    (c.enrolled s).runBlock.1.blockRuns = c.blockRuns ++ [(c.enrolled s).pipeline] ∧
      (c.enrolled s).runBlock.1.lookup = (c.enrolled s).lookup ∧
      (c.enrolled s).runBlock.1.pipeline = block (c.enrolled s).pipeline := by
  have hmeets : (c.enrolled s).seedBlock = some block :=
    (c.precedes_enrolled s).seedBlock.trans hblock
  unfold runBlock
  rw [hmeets]
  refine ⟨?_, rfl, rfl⟩
  show (c.enrolled s).blockRuns ++ _ = _
  rw [enrolled_blockRuns]

/-- No rule rejects a ref that is included, and every other ref is rejected. -/
theorem rejection?_eq_none_iff (v : Verdict) : rejection? v = none ↔ ∃ w, v = .included w := by
  cases v with
  | included w => exact ⟨fun _ => ⟨w, rfl⟩, fun _ => rfl⟩
  | excluded => exact ⟨nofun, nofun⟩
  | invalidPattern pattern => exact ⟨nofun, nofun⟩

/-- Meeting the graph has nothing to do with the seed block. -/
theorem attach_frame (c : Creation) (g : Graph) :
    ∃ p graph, (c.attach g).1 = { c with pipeline := p, graph := graph } ∧
      p.vars = c.pipeline.vars := by
  obtain ⟨-, hattach⟩ | ⟨-, message, hattach⟩ := c.attach_cases g
  · exact ⟨c.pipeline, some g, hattach, rfl⟩
  · exact ⟨c.pipeline.reject message .configError, c.graph, hattach, c.pipeline.reject_vars _ _⟩

variable [Regex.Engine]

/-- The first link leaves no errors, and the rules of the workflow include the ref. -/
structure Admitted (memo : Option GraphMemo) (c : Creation) (s : Stores) (d : Definition) :
    Prop where
  clean : (c.seed memo s).1.creation.pipeline.errors = []
  included : ∃ w, Rule.judge d.workflowRules c.pipeline.refName .always = .included w

/-- The seed block of a creation has its turn in a run: as soon as the creation is
enrolled or, if the block is deferred, once the creation is admitted, too. -/
structure BlockTurn (memo : Option GraphMemo) (c : Creation) (s : Stores) (d : Definition) :
    Prop where
  definition : c.definition = some d
  enrolls : c.Enrolls s
  admitted : c.features.seedBlockAfterWorkflowRules = true → Admitted memo c s d

namespace Seeded

/-- The first link leaves the seeded creation. -/
theorem seed_creation (h : Seeded memo c s d g k t) : (c.seed memo s).1.creation = k := by
  obtain ⟨notes, hseed⟩ := h.seed_eq
  rw [hseed]
  rfl

/-- A seeded creation without errors is the enrolled one, whose seed block has had the
first chance, with its graph. -/
theorem eq_enrolled (h : Seeded memo c s d g k t) (hclean : k.pipeline.hasErrors = false) :
    k = { (c.enrolled s).blockAtOnce with graph := some g } := by
  rw [(h.attached hclean).2, (prepare_enrolled h.prepared).2]

/-- A seed block that is deferred has not touched the name of the ref. -/
theorem refName_of_deferred (h : Seeded memo c s d g k t) (hclean : k.pipeline.hasErrors = false)
    (hdeferred : c.features.seedBlockAfterWorkflowRules = true) :
    k.pipeline.refName = c.pipeline.refName := by
  have henrolled := c.precedes_enrolled s
  rw [← henrolled.features] at hdeferred
  rw [h.eq_enrolled hclean, blockAtOnce_of_deferred hdeferred]
  exact henrolled.pipeline.refName

end Seeded

/-! ## §3. One turn or none. -/

/-- What has become of the seed block of a creation on its way to another one: it has been
invoked on the pipeline of the enrolled creation and has set its variables, or there was no
turn for it. -/
inductive Invocation (memo : Option GraphMemo) (c : Creation) (block : SeedBlock) (s : Stores)
    (k : Creation) : Prop where
  | invoked {d : Definition} (turn : BlockTurn memo c s d)
      (blockRuns : k.blockRuns = c.blockRuns ++ [(c.enrolled s).pipeline])
      (lookup : k.lookup = (c.enrolled s).lookup)
      (vars : k.pipeline.vars = (block (c.enrolled s).pipeline).vars)
  | passedOver (noTurn : ∀ d, ¬BlockTurn memo c s d) (blockRuns : k.blockRuns = c.blockRuns)

/-- What is recorded on the pipeline later on does not matter. -/
theorem Invocation.of_pipeline {block : SeedBlock} (h : Invocation memo c block s k)
    {p : Pipeline} (hvars : p.vars = k.pipeline.vars) :
    Invocation memo c block s { k with pipeline := p } := by
  cases h with
  | invoked turn blockRuns lookup vars =>
      exact .invoked turn blockRuns lookup (hvars.trans vars)
  | passedOver noTurn blockRuns => exact .passedOver noTurn blockRuns

/-- A seeded creation has invoked its block, unless the block is deferred and waits for
an admission that does not come. -/
theorem Seeded.invocation (h : Seeded memo c s d g k t) {block : SeedBlock}
    (hblock : c.seedBlock = some block)
    (hrefused : c.features.seedBlockAfterWorkflowRules = true → ¬Admitted memo c s d) :
    Invocation memo c block s k := by
  obtain ⟨henrolls, hprepared⟩ := prepare_enrolled h.prepared
  obtain ⟨p, graph, hattach, hvars⟩ := (c.prepare s).creation.attach_frame g
  have hfeatures := (c.precedes_enrolled s).features
  rw [h.creation, hattach]
  rw [hprepared] at hvars ⊢
  by_cases hdeferred : c.features.seedBlockAfterWorkflowRules = true
  · rw [blockAtOnce_of_deferred (by rw [hfeatures]; exact hdeferred)]
    refine .passedOver ?_ (c.enrolled_blockRuns s)
    rintro d' ⟨hdefinition, -, hadmitted⟩
    cases h.definition.symm.trans hdefinition
    exact hrefused hdeferred (hadmitted hdeferred)
  · rw [blockAtOnce_of_not_deferred (by rw [hfeatures]; exact hdeferred)] at hvars ⊢
    obtain ⟨hruns, hlookup, hpipeline⟩ := enrolled_runBlock hblock s
    have hturn : BlockTurn memo c s d :=
      ⟨h.definition, henrolls, fun htrue => absurd htrue hdeferred⟩
    rw [hpipeline] at hvars
    exact .invoked hturn hruns hlookup hvars

/-- A creation that is let pass has invoked its block when the third link is done. -/
theorem Passed.invocation (h : Passed memo c s d g k t) {block : SeedBlock}
    (hblock : c.seedBlock = some block) : Invocation memo c block s k.blockDeferred := by
  have hturn : BlockTurn memo c s d := by
    refine ⟨h.definition, (prepare_enrolled h.prepared).1, fun hdeferred => ⟨?_, ?_⟩⟩
    · rw [h.toSeeded.seed_creation]
      exact k.pipeline.hasErrors_eq_false_iff.mp h.clean
    · have hverdict := h.verdict
      rw [h.toSeeded.refName_of_deferred h.clean hdeferred] at hverdict
      exact (rejection?_eq_none_iff _).mp hverdict
  -- at once or deferred, the enrolled creation has run its block exactly once
  rw [h.toSeeded.eq_enrolled h.clean, blockDeferred_blockAtOnce]
  obtain ⟨hruns, hlookup, hpipeline⟩ := enrolled_runBlock hblock s
  exact .invoked hturn hruns hlookup (congrArg (·.vars) hpipeline)

end Creation

open Creation (Invocation Admitted)

/-- **A run invokes the seed block when it has its turn, once, and on the pipeline of the
enrolled creation.** -/
theorem Ending.invocation [Regex.Engine] {memo : Option GraphMemo} {c : Creation} {s : Stores}
    {r : Run CreationLink} (h : Ending memo c s r) {block : SeedBlock}
    (hblock : c.seedBlock = some block) : Invocation memo c block s r.creation := by
  cases h with
  | undefined trace definition =>
      refine .passedOver ?_ rfl
      intro d hturn
      cases definition.symm.trans hturn.definition
  | unprepared trace definition refused =>
      obtain ⟨hunenrolled, hruns⟩ := Creation.prepare_unenrolled refused
      exact .passedOver (fun d hturn => hunenrolled hturn.enrolls) hruns
  | @haltedAtSeed trace d g k t seeded mistaken =>
      refine seeded.invocation hblock ?_
      intro hdeferred hadmitted
      have hclean := (Pipeline.hasErrors_eq_false_iff _).mpr hadmitted.clean
      rw [seeded.seed_creation, mistaken] at hclean
      cases hclean
  | @haltedAtRules trace d g k t message reason seeded clean verdict =>
      refine (seeded.invocation hblock ?_).of_pipeline (k.pipeline.reject_vars _ _)
      intro hdeferred hadmitted
      have hpassed := (Creation.rejection?_eq_none_iff _).mpr hadmitted.included
      rw [seeded.refName_of_deferred clean hdeferred, hpassed] at verdict
      cases verdict
  | haltedAtBlock trace passed mistaken => exact passed.invocation hblock
  | haltedAtCreate trace ready empty =>
      exact (ready.toPassed.invocation hblock).of_pipeline (Pipeline.reject_vars _ _ _)
  | unpersisted trace ready nonempty faulty => exact ready.toPassed.invocation hblock
  | complete trace ready nonempty healthy =>
      exact (ready.toPassed.invocation hblock).of_pipeline rfl

/-! ## §4. Runs of the standard chain. -/

namespace Creation

/-- The features of a creation are those that its settings have for its project, as they
are when it starts. -/
def Resolved (c : Creation) : Prop := c.features = c.settings.features.resolve c.project.id

/-- The gate of the deferred seed block is open for the project. -/
def GateOpen (c : Creation) : Prop :=
  c.settings.features.seedBlockAfterWorkflowRules.isOpenFor c.project.id = true

theorem Resolved.deferred_iff {c : Creation} (h : c.Resolved) :
    c.features.seedBlockAfterWorkflowRules = true ↔ c.GateOpen := by
  rw [h]
  rfl

end Creation

/-- How a run invokes the seed block of its creation: on certain pipelines, in order. -/
structure Run.Invoked [Regex.Engine] (memo : Option GraphMemo) (c : Creation) (block : SeedBlock)
    (s : Stores) (r : Run CreationLink) (given : List Pipeline) : Prop where
  /-- These are the pipelines that the block is given in the run. -/
  blockRuns : r.creation.blockRuns = c.blockRuns ++ given
  /-- It is invoked at most once. -/
  once : given.length ≤ 1
  /-- Behind a closed gate it is invoked if the creation has a definition, a number and a
  registered ref, whatever is wrong with its graph or its ref. -/
  atOnce : ¬c.GateOpen → (given ≠ [] ↔ c.definition ≠ none ∧ c.Enrolls s)
  /-- Behind an open gate, the creation has to be admitted, too. -/
  deferred : c.GateOpen →
    (given ≠ [] ↔ ∃ d, c.definition = some d ∧ c.Enrolls s ∧ Admitted memo c s d)
  /-- The pipeline has been enrolled when the block is given it. -/
  enrolled : ∀ p ∈ given, c.Enrolled s r.creation.lookup p
  /-- What the block sets is there when the run has ended. -/
  vars : ∀ p ∈ given, r.creation.pipeline.vars = (block p).vars

/-- **A run of the standard chain invokes the seed block at most once, exactly when it has
its turn, and on an enrolled pipeline**, whatever the block does to it and whatever the
first link has kept. -/
theorem standard_run_invoked [Regex.Engine] {c : Creation} {block : SeedBlock}
    (hblock : c.seedBlock = some block) (hresolved : c.Resolved) (memo : Option GraphMemo)
    (s : Stores) :
    ∃ given, Run.Invoked memo c block s ((Chain.standardWith memo).run c s) given := by
  have hgate := hresolved.deferred_iff
  have hinvocation := (run_ending memo c s).invocation hblock
  generalize (Chain.standardWith memo).run c s = r at hinvocation ⊢
  cases hinvocation with
  | @invoked d turn blockRuns lookup vars =>
      refine ⟨[(c.enrolled s).pipeline], blockRuns, Nat.le_refl 1, ?_, ?_, ?_, ?_⟩
      · intro hclosed
        have hdefinition : c.definition ≠ none := by
          rw [turn.definition]
          exact nofun
        exact iff_of_true (List.cons_ne_nil _ _) ⟨hdefinition, turn.enrolls⟩
      · intro hopen
        have hadmitted := turn.admitted (hgate.mpr hopen)
        exact iff_of_true (List.cons_ne_nil _ _) ⟨d, turn.definition, turn.enrolls, hadmitted⟩
      · intro p hp
        cases List.mem_singleton.mp hp
        rw [lookup]
        exact turn.enrolls.enrolled
      · intro p hp
        cases List.mem_singleton.mp hp
        exact vars
  | passedOver noTurn blockRuns =>
      refine ⟨[], by rw [blockRuns, List.append_nil], Nat.zero_le 1, ?_, ?_, ?_, ?_⟩
      · intro hclosed
        refine iff_of_false (fun hne => hne rfl) ?_
        rintro ⟨hdefinition, henrolls⟩
        obtain ⟨d, hd⟩ := Option.ne_none_iff_exists'.mp hdefinition
        exact noTurn d ⟨hd, henrolls, fun hdeferred => absurd (hgate.mp hdeferred) hclosed⟩
      · intro hopen
        refine iff_of_false (fun hne => hne rfl) ?_
        rintro ⟨d, hd, henrolls, hadmitted⟩
        exact noTurn d ⟨hd, henrolls, fun _ => hadmitted⟩
      · intro p hp
        cases hp
      · intro p hp
        cases hp

/-- The sample whose branch the rules of the workflow drop, behind an open gate. -/
def Creation.droppedInTime : Creation := Creation.dropped.gatedBy ⟨.everyone⟩

/-- The seed block of the samples. -/
def SeedBlock.ofSample : SeedBlock := fun p => { p with vars := p.vars.insert "TARGET" "all" }

theorem Creation.dropped_resolved : Creation.dropped.Resolved := rfl

theorem Creation.droppedInTime_resolved : Creation.droppedInTime.Resolved := rfl

/-- The block of a creation that is dropped is invoked behind a closed gate only. -/
theorem standard_run_invoked_sample :
    Creation.dropped.seedBlock = some .ofSample ∧ Creation.dropped.Resolved ∧
      Creation.droppedInTime.seedBlock = some .ofSample ∧ Creation.droppedInTime.Resolved ∧
      ¬Creation.dropped.GateOpen ∧ Creation.droppedInTime.GateOpen ∧
      (Chain.standard.run .dropped .empty).creation.blockRuns.length = 1 ∧
      (Chain.standard.run .droppedInTime .empty).creation.blockRuns.length = 0 ∧
      (∃ given,
        Run.Invoked none .dropped .ofSample .empty (Chain.standard.run .dropped .empty) given) ∧
      ∃ given,
        Run.Invoked none .droppedInTime .ofSample .empty
          (Chain.standard.run .droppedInTime .empty) given :=
  ⟨rfl, Creation.dropped_resolved, rfl, Creation.droppedInTime_resolved, nofun, rfl,
    by decide +kernel, by decide +kernel,
    standard_run_invoked rfl Creation.dropped_resolved none .empty,
    standard_run_invoked rfl Creation.droppedInTime_resolved none .empty⟩

end CiPipeline
