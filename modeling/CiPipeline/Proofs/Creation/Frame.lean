/-
  CiPipeline.Proofs.Creation.Frame
  ────────────────────────────────
  **What the steps before the graph change, and what they leave alone.**

  Preparing a creation numbers its pipeline, registers the ref, protects the
  pipeline and may run the seed block.  A pipeline `Precedes` what it becomes on
  the way: it keeps what identifies it, and it keeps a number or a registered ref
  once it has one.  As long as the seed block only sets variables, nothing is
  decided yet (`SameVerdict`), and the repository is not called at all.

  Main statements: `preparation`, `Preparation.undecided`, `Preparation.number`.
-/
import CiPipeline.Creation.Seeding

namespace CiPipeline

/-! ## §1. Pipelines on their way. -/

namespace Pipeline

/-- What identifies a pipeline stays as it is, and a number or a registered ref is
kept once it is there. -/
structure Precedes (p q : Pipeline) : Prop where
  projectId : q.projectId = p.projectId
  refName : q.refName = p.refName
  tag : q.tag = p.tag
  sha : q.sha = p.sha
  source : q.source = p.source
  createdAt : q.createdAt = p.createdAt
  iid : ∀ n, p.iid = some n → q.iid = some n
  ciRef : ∀ r, p.ciRef = some r → q.ciRef = some r

theorem Precedes.refl (p : Pipeline) : p.Precedes p :=
  ⟨rfl, rfl, rfl, rfl, rfl, rfl, fun _ h => h, fun _ h => h⟩

theorem Precedes.trans {p q r : Pipeline} (hpq : p.Precedes q) (hqr : q.Precedes r) :
    p.Precedes r where
  projectId := hqr.projectId.trans hpq.projectId
  refName := hqr.refName.trans hpq.refName
  tag := hqr.tag.trans hpq.tag
  sha := hqr.sha.trans hpq.sha
  source := hqr.source.trans hpq.source
  createdAt := hqr.createdAt.trans hpq.createdAt
  iid := fun n h => hqr.iid n (hpq.iid n h)
  ciRef := fun c h => hqr.ciRef c (hpq.ciRef c h)

/-- Nothing has been decided between two states of a pipeline: it is neither
persisted nor failed in between, and no error is added. -/
structure SameVerdict (p q : Pipeline) : Prop where
  id : q.id = p.id
  status : q.status = p.status
  errors : q.errors = p.errors
  failureReason : q.failureReason = p.failureReason
  yamlErrors : q.yamlErrors = p.yamlErrors

theorem SameVerdict.refl (p : Pipeline) : p.SameVerdict p := ⟨rfl, rfl, rfl, rfl, rfl⟩

theorem SameVerdict.trans {p q r : Pipeline} (hpq : p.SameVerdict q) (hqr : q.SameVerdict r) :
    p.SameVerdict r where
  id := hqr.id.trans hpq.id
  status := hqr.status.trans hpq.status
  errors := hqr.errors.trans hpq.errors
  failureReason := hqr.failureReason.trans hpq.failureReason
  yamlErrors := hqr.yamlErrors.trans hpq.yamlErrors

theorem SameVerdict.hasErrors {p q : Pipeline} (h : p.SameVerdict q) :
    q.hasErrors = p.hasErrors := by
  unfold Pipeline.hasErrors
  rw [h.errors]

theorem precedes_reject (p : Pipeline) (message : String) (reason : FailureReason) :
    p.Precedes (p.reject message reason) := by
  unfold reject
  split
  · exact ⟨rfl, rfl, rfl, rfl, rfl, rfl, fun _ h => h, fun _ h => h⟩
  · exact ⟨rfl, rfl, rfl, rfl, rfl, rfl, fun _ h => h, fun _ h => h⟩

/-- A rejected pipeline has an error. -/
theorem hasErrors_reject (p : Pipeline) (message : String) (reason : FailureReason) :
    (p.reject message reason).hasErrors = true := by
  unfold reject
  split
  · simp [hasErrors, failFor, withError]
  · simp [hasErrors, failFor, withError]

end Pipeline

/-! ## §2. The number and the registered ref. -/

namespace Stores

/-- The repository and its faults are as they were, and it has not been called. -/
structure SameRepository (s t : Stores) : Prop where
  repository : t.repository = s.repository
  faults : t.faults = s.faults
  calls : t.calls = s.calls

theorem SameRepository.refl (s : Stores) : s.SameRepository s := ⟨rfl, rfl, rfl⟩

theorem SameRepository.trans {s t u : Stores} (hst : s.SameRepository t)
    (htu : t.SameRepository u) : s.SameRepository u where
  repository := htu.repository.trans hst.repository
  faults := htu.faults.trans hst.faults
  calls := htu.calls.trans hst.calls

end Stores

/-- From one moment to a later one a pipeline goes its way, but nothing is decided
about it and the repository does not hear of it. -/
structure Undecided (p : Pipeline) (s : Stores) (q : Pipeline) (t : Stores) : Prop where
  precedes : p.Precedes q
  verdict : p.SameVerdict q
  repository : s.SameRepository t

theorem Undecided.refl (p : Pipeline) (s : Stores) : Undecided p s p s :=
  ⟨.refl p, .refl p, .refl s⟩

theorem Undecided.trans {p q r : Pipeline} {s t u : Stores} (h : Undecided p s q t)
    (h' : Undecided q t r u) : Undecided p s r u :=
  ⟨h.precedes.trans h'.precedes, h.verdict.trans h'.verdict, h.repository.trans h'.repository⟩

namespace Pipeline

/-- **A number is there already, or it is refused, or it is the next of the
project's sequence.** -/
theorem takeNumber_cases (p : Pipeline) (s : Stores) :
    (∃ n, p.iid = some n ∧ p.takeNumber s = ⟨.ok n, p, s, []⟩) ∨
    (p.iid = none ∧ ∃ e, p.takeNumber s = ⟨.error e, p, s, []⟩) ∨
    (p.iid = none ∧ ∃ n sequences,
      s.sequences.next (.pipelines p.projectId) = (.ok n, sequences) ∧
      p.takeNumber s = ⟨.ok n, { p with iid := some n }, { s with sequences := sequences },
        Sequences.nextLog (.ok n)⟩) := by
  cases hiid : p.iid with
  | some n =>
      refine .inl ⟨n, rfl, ?_⟩
      unfold takeNumber
      rw [hiid]
  | none =>
      refine .inr ?_
      unfold takeNumber Stores.nextNumber
      rw [hiid]
      cases hfault : s.faults.sequences with
      | true => exact .inl ⟨rfl, _, rfl⟩
      | false =>
          cases hnext : s.sequences.next (.pipelines p.projectId) with
          | mk result sequences =>
              cases result with
              | ok n => exact .inr ⟨rfl, n, sequences, rfl, rfl⟩
              | error e =>
                  -- a sequence that is exhausted stays as it is
                  have hsame : sequences = s.sequences := by
                    unfold Sequences.next at hnext
                    dsimp only at hnext
                    split at hnext
                    · exact (Prod.mk.inj hnext).2.symm
                    · exact absurd (Prod.mk.inj hnext).1 nofun
                  subst hsame
                  exact .inl ⟨rfl, e, rfl⟩

/-- Taking a number decides nothing. -/
theorem takeNumber_undecided (p : Pipeline) (s : Stores) :
    Undecided p s (p.takeNumber s).pipeline (p.takeNumber s).stores := by
  obtain ⟨n, -, htake⟩ | ⟨-, e, htake⟩ | ⟨hiid, n, sequences, -, htake⟩ := takeNumber_cases p s
  · rw [htake]; exact .refl p s
  · rw [htake]; exact .refl p s
  · rw [htake]
    refine ⟨⟨rfl, rfl, rfl, rfl, rfl, rfl, fun m h => ?_, fun _ h => h⟩,
      ⟨rfl, rfl, rfl, rfl, rfl⟩, ⟨rfl, rfl, rfl⟩⟩
    rw [hiid] at h
    cases h

/-- A pipeline that has taken its number has it. -/
theorem iid_of_takeNumber {p : Pipeline} {s : Stores} {n : Int64}
    (h : (p.takeNumber s).result = .ok n) : (p.takeNumber s).pipeline.iid = some n := by
  obtain ⟨m, hiid, htake⟩ | ⟨-, e, htake⟩ | ⟨-, m, sequences, -, htake⟩ := takeNumber_cases p s
  · rw [htake] at h ⊢
    cases h
    exact hiid
  · rw [htake] at h
    cases h
  · rw [htake] at h ⊢
    cases h
    rfl

/-- A number that is there already is not taken again. -/
theorem takeNumber_of_iid {p : Pipeline} {n : Int64} (h : p.iid = some n) (s : Stores) :
    p.takeNumber s = ⟨.ok n, p, s, []⟩ := by
  unfold takeNumber
  rw [h]

/-- Nothing changes when a number is refused. -/
theorem takeNumber_of_refused {p : Pipeline} {s : Stores} {e : SequenceError}
    (h : (p.takeNumber s).result = .error e) : p.takeNumber s = ⟨.error e, p, s, []⟩ := by
  obtain ⟨n, -, htake⟩ | ⟨-, e', htake⟩ | ⟨-, n, sequences, -, htake⟩ := takeNumber_cases p s
  · rw [htake] at h
    cases h
  · rw [htake] at h ⊢
    cases h
    rfl
  · rw [htake] at h
    cases h

/-- A ref is registered already, or its registration is refused, or the registry
has it now. -/
theorem register_cases (p : Pipeline) (s : Stores) :
    (∃ r, p.ciRef = some r ∧ p.register s = ⟨.ok r, p, s, []⟩) ∨
    (p.ciRef = none ∧ ∃ e, p.register s = ⟨.error e, p, s, []⟩) ∨
    (p.ciRef = none ∧ ∃ r refs, s.ciRefs.register p.projectId p.refPath = (r, refs) ∧
      p.register s = ⟨.ok r, { p with ciRef := some r }, { s with ciRefs := refs }, []⟩) := by
  cases href : p.ciRef with
  | some r =>
      refine .inl ⟨r, rfl, ?_⟩
      unfold register
      rw [href]
  | none =>
      refine .inr ?_
      unfold register Stores.register
      rw [href]
      cases hfault : s.faults.ciRefs with
      | true => exact .inl ⟨rfl, _, rfl⟩
      | false => exact .inr ⟨rfl, _, _, rfl, rfl⟩

/-- A ref that is registered already is not registered again. -/
theorem register_of_ciRef {p : Pipeline} {r : CiRef} (h : p.ciRef = some r) (s : Stores) :
    p.register s = ⟨.ok r, p, s, []⟩ := by
  unfold register
  rw [h]

/-- Nothing changes when the registration of a ref is refused. -/
theorem register_of_refused {p : Pipeline} {s : Stores} {e : StoreError}
    (h : (p.register s).result = .error e) : p.register s = ⟨.error e, p, s, []⟩ := by
  obtain ⟨r, -, hreg⟩ | ⟨-, e', hreg⟩ | ⟨-, r, refs, -, hreg⟩ := register_cases p s
  · rw [hreg] at h
    cases h
  · rw [hreg] at h ⊢
    cases h
    rfl
  · rw [hreg] at h
    cases h

/-- A pipeline that has registered its ref has it. -/
theorem ciRef_of_register {p : Pipeline} {s : Stores} {r : CiRef}
    (h : (p.register s).result = .ok r) : (p.register s).pipeline.ciRef = some r := by
  obtain ⟨r', href, hreg⟩ | ⟨-, e, hreg⟩ | ⟨-, r', refs, -, hreg⟩ := register_cases p s
  · rw [hreg] at h ⊢
    cases h
    exact href
  · rw [hreg] at h
    cases h
  · rw [hreg] at h ⊢
    cases h
    rfl

/-- Registering a ref decides nothing. -/
theorem register_undecided (p : Pipeline) (s : Stores) :
    Undecided p s (p.register s).pipeline (p.register s).stores := by
  obtain ⟨r, -, hreg⟩ | ⟨-, e, hreg⟩ | ⟨href, r, refs, -, hreg⟩ := register_cases p s
  · rw [hreg]; exact .refl p s
  · rw [hreg]; exact .refl p s
  · rw [hreg]
    refine ⟨⟨rfl, rfl, rfl, rfl, rfl, rfl, fun _ h => h, fun m h => ?_⟩,
      ⟨rfl, rfl, rfl, rfl, rfl⟩, ⟨rfl, rfl, rfl⟩⟩
    rw [href] at h
    cases h

/-- Registering a ref has nothing to do with numbers. -/
theorem register_iid (p : Pipeline) (s : Stores) :
    (p.register s).pipeline.iid = p.iid ∧ (p.register s).stores.sequences = s.sequences := by
  obtain ⟨r, -, hreg⟩ | ⟨-, e, hreg⟩ | ⟨-, r, refs, -, hreg⟩ := register_cases p s
  · rw [hreg]; exact ⟨rfl, rfl⟩
  · rw [hreg]; exact ⟨rfl, rfl⟩
  · rw [hreg]; exact ⟨rfl, rfl⟩

end Pipeline

/-! ## §3. The rest of a creation. -/

/-- A seed block that only sets variables. -/
def SeedBlock.SetsVars (block : SeedBlock) : Prop :=
  ∀ p : Pipeline, ∃ vars, block p = { p with vars := vars }

namespace Creation

/-- The seed block of a creation, if there is one, only sets variables. -/
def BlockSetsVars (c : Creation) : Prop :=
  ∀ block, c.seedBlock = some block → SeedBlock.SetsVars block

/-- What a creation is given by its caller stays as it is, and its pipeline goes
its way. -/
structure Precedes (c d : Creation) : Prop where
  runId : d.runId = c.runId
  project : d.project = c.project
  definition : d.definition = c.definition
  seedBlock : d.seedBlock = c.seedBlock
  settings : d.settings = c.settings
  features : d.features = c.features
  protection : d.protection = c.protection
  pipeline : c.pipeline.Precedes d.pipeline

theorem Precedes.trans {c d e : Creation} (hcd : c.Precedes d) (hde : d.Precedes e) :
    c.Precedes e where
  runId := hde.runId.trans hcd.runId
  project := hde.project.trans hcd.project
  definition := hde.definition.trans hcd.definition
  seedBlock := hde.seedBlock.trans hcd.seedBlock
  settings := hde.settings.trans hcd.settings
  features := hde.features.trans hcd.features
  protection := hde.protection.trans hcd.protection
  pipeline := hcd.pipeline.trans hde.pipeline

theorem Precedes.blockSetsVars {c d : Creation} (h : c.Precedes d) (hblock : c.BlockSetsVars) :
    d.BlockSetsVars := by
  unfold BlockSetsVars
  rw [h.seedBlock]
  exact hblock

/-- A pipeline that goes its way takes its creation with it. -/
theorem precedes_of_pipeline {c : Creation} {p : Pipeline} (h : c.pipeline.Precedes p) :
    c.Precedes { c with pipeline := p } :=
  ⟨rfl, rfl, rfl, rfl, rfl, rfl, rfl, h⟩

theorem askProtection_eq (c : Creation) :
    ∃ answer lookup, c.askProtection = (answer, { c with lookup := lookup }) := by
  unfold askProtection
  split
  case h_1 l hlookup => exact ⟨l.answer, c.lookup, rfl⟩
  case h_2 => exact ⟨_, _, rfl⟩

/-- Protecting the pipeline changes its flag and what is known of the ref. -/
theorem protect_eq (c : Creation) :
    ∃ answer lookup, c.protect =
      { c with pipeline := { c.pipeline with refProtected := answer }, lookup := lookup } := by
  obtain ⟨answer, lookup, hask⟩ := c.askProtection_eq
  refine ⟨answer, lookup, ?_⟩
  unfold protect
  rw [hask]

/-- The seed block changes the pipeline and leaves a trace of its run. -/
theorem runBlock_eq (c : Creation) :
    ∃ p runs, c.runBlock.1 = { c with pipeline := p, blockRuns := runs } ∧
      (c.BlockSetsVars → ∃ vars, p = { c.pipeline with vars := vars }) := by
  unfold runBlock
  split
  case h_1 => exact ⟨c.pipeline, c.blockRuns, rfl, fun _ => ⟨c.pipeline.vars, rfl⟩⟩
  case h_2 block hblock => exact ⟨_, _, rfl, fun hsets => hsets block hblock c.pipeline⟩

/-- The seed block, run at its first chance: unless it is deferred. -/
def blockAtOnce (c : Creation) : Creation :=
  if c.features.seedBlockAfterWorkflowRules then c else c.runBlock.1

theorem blockAtOnce_of_deferred {c : Creation} (h : c.features.seedBlockAfterWorkflowRules = true) :
    c.blockAtOnce = c := if_pos h

theorem blockAtOnce_of_not_deferred {c : Creation}
    (h : ¬c.features.seedBlockAfterWorkflowRules = true) : c.blockAtOnce = c.runBlock.1 := if_neg h

/-- The seed block, run at its second chance: if it is deferred. -/
def blockDeferred (c : Creation) : Creation :=
  if c.features.seedBlockAfterWorkflowRules then c.runBlock.1 else c

/-- A seed block that only sets variables decides nothing, whether it runs or not. -/
theorem runBlock_undecided {c : Creation} (h : c.BlockSetsVars) (s : Stores) :
    c.Precedes c.runBlock.1 ∧ Undecided c.pipeline s c.runBlock.1.pipeline s ∧
      c.runBlock.1.pipeline.iid = c.pipeline.iid ∧ c.runBlock.1.graph = c.graph := by
  obtain ⟨p, runs, hrun, hvars⟩ := c.runBlock_eq
  -- the one place where it matters what a seed block may do
  obtain ⟨vars, rfl⟩ := hvars h
  have hway : c.pipeline.Precedes { c.pipeline with vars := vars } :=
    ⟨rfl, rfl, rfl, rfl, rfl, rfl, fun _ h => h, fun _ h => h⟩
  rw [hrun]
  exact ⟨⟨rfl, rfl, rfl, rfl, rfl, rfl, rfl, hway⟩,
    ⟨hway, ⟨rfl, rfl, rfl, rfl, rfl⟩, .refl s⟩, rfl, rfl⟩

/-! ## §4. Preparing. -/

/-- How a creation takes its number. -/
def numbering (c : Creation) (s : Stores) : Registration SequenceError Int64 :=
  c.pipeline.takeNumber s

/-- How a creation registers its ref, once it has its number. -/
def registering (c : Creation) (s : Stores) : Registration StoreError CiRef :=
  (c.numbering s).pipeline.register (c.numbering s).stores

/-- How preparing a creation ends: it gets no number, or its ref is not
registered, or it is protected and meets its seed block. -/
inductive Preparation (c : Creation) (s : Stores) : Work → Prop where
  | unnumbered {e : SequenceError} (notes : List Note)
      (refused : (c.numbering s).result = .error e) :
      Preparation c s (.abort (.allocation e) { c with pipeline := (c.numbering s).pipeline }
        (c.numbering s).stores notes)
  | unregistered {n : Int64} {e : StoreError} (notes : List Note)
      (numbered : (c.numbering s).result = .ok n)
      (refused : (c.registering s).result = .error e) :
      Preparation c s (.abort (.persistence e) { c with pipeline := (c.registering s).pipeline }
        (c.registering s).stores notes)
  | prepared {n : Int64} {r : CiRef} (notes : List Note)
      (numbered : (c.numbering s).result = .ok n)
      (registered : (c.registering s).result = .ok r) :
      Preparation c s (.done { c with pipeline := (c.registering s).pipeline }.protect.blockAtOnce
        (c.registering s).stores notes)

/-- **Every creation that is prepared ends in one of the three ways.** -/
theorem preparation (c : Creation) (s : Stores) : Preparation c s (c.prepare s) := by
  unfold prepare
  dsimp only
  split
  case h_1 e hnumber => exact .unnumbered _ hnumber
  case h_2 n hnumber =>
    split
    case h_1 e hregister => exact .unregistered _ hnumber hregister
    case h_2 r hregister =>
      -- deferred or not, the creation has had its first chance to run the block
      split
      case isTrue hdeferred =>
        rw [← blockAtOnce_of_deferred hdeferred]
        exact .prepared _ hnumber hregister
      case isFalse hdeferred =>
        rw [← blockAtOnce_of_not_deferred hdeferred]
        exact .prepared _ hnumber hregister

theorem numbering_undecided (c : Creation) (s : Stores) :
    Undecided c.pipeline s (c.numbering s).pipeline (c.numbering s).stores :=
  c.pipeline.takeNumber_undecided s

theorem registering_undecided (c : Creation) (s : Stores) :
    Undecided c.pipeline s (c.registering s).pipeline (c.registering s).stores :=
  (c.numbering_undecided s).trans (Pipeline.register_undecided _ _)

/-- A preparation that fails decides nothing, whatever the seed block would do. -/
theorem prepare_verdict_of_error {c : Creation} {s : Stores} {e : CreationError}
    (h : (c.prepare s).result = .error e) :
    c.pipeline.SameVerdict (c.prepare s).creation.pipeline := by
  have hprepared := c.preparation s
  generalize c.prepare s = w at h hprepared ⊢
  cases hprepared with
  | unnumbered notes refused => exact (c.numbering_undecided s).verdict
  | unregistered notes numbered refused => exact (c.registering_undecided s).verdict
  | prepared notes numbered registered => cases h

/-- The repository does not hear of the preparation, whatever the seed block does. -/
theorem prepare_repository (c : Creation) (s : Stores) :
    (c.prepare s).stores.repository = s.repository := by
  have hprepared := c.preparation s
  generalize c.prepare s = w at hprepared ⊢
  cases hprepared with
  | unnumbered notes refused => exact (c.numbering_undecided s).repository.repository
  | unregistered notes numbered refused => exact (c.registering_undecided s).repository.repository
  | prepared notes numbered registered => exact (c.registering_undecided s).repository.repository

theorem protect_undecided (c : Creation) (s : Stores) :
    c.Precedes c.protect ∧ Undecided c.pipeline s c.protect.pipeline s ∧
      c.protect.pipeline.iid = c.pipeline.iid := by
  obtain ⟨answer, lookup, hprotect⟩ := c.protect_eq
  have hway : c.pipeline.Precedes { c.pipeline with refProtected := answer } :=
    ⟨rfl, rfl, rfl, rfl, rfl, rfl, fun _ h => h, fun _ h => h⟩
  rw [hprotect]
  exact ⟨⟨rfl, rfl, rfl, rfl, rfl, rfl, rfl, hway⟩,
    ⟨hway, ⟨rfl, rfl, rfl, rfl, rfl⟩, .refl s⟩, rfl⟩

theorem blockAtOnce_undecided {c : Creation} (h : c.BlockSetsVars) (s : Stores) :
    c.Precedes c.blockAtOnce ∧ Undecided c.pipeline s c.blockAtOnce.pipeline s ∧
      c.blockAtOnce.pipeline.iid = c.pipeline.iid := by
  unfold blockAtOnce
  split
  case isTrue => exact ⟨precedes_of_pipeline (.refl _), .refl _ s, rfl⟩
  case isFalse =>
    obtain ⟨hway, hundecided, hiid, -⟩ := runBlock_undecided h s
    exact ⟨hway, hundecided, hiid⟩

/-- The way of a creation that is numbered, registered and protected, and that has
met its seed block. -/
theorem registered_undecided {c : Creation} (h : c.BlockSetsVars) (s : Stores) :
    let d := { c with pipeline := (c.registering s).pipeline }.protect.blockAtOnce
    c.Precedes d ∧ Undecided c.pipeline s d.pipeline (c.registering s).stores ∧
      d.pipeline.iid = (c.numbering s).pipeline.iid := by
  -- registering, protecting and the block, each from where the one before ends
  have hregistering := c.registering_undecided s
  have hway := precedes_of_pipeline hregistering.precedes
  obtain ⟨hprotect, hundecided, hiid⟩ :=
    protect_undecided { c with pipeline := (c.registering s).pipeline } (c.registering s).stores
  have hprotected := hway.trans hprotect
  obtain ⟨hblock, hundecided', hiid'⟩ :=
    blockAtOnce_undecided (hprotected.blockSetsVars h) (c.registering s).stores
  refine ⟨hprotected.trans hblock, (hregistering.trans hundecided).trans hundecided', ?_⟩
  rw [hiid', hiid]
  exact (Pipeline.register_iid _ _).1

/-- **Preparing a creation decides nothing.** -/
theorem Preparation.undecided {c : Creation} {s : Stores} {w : Work} (h : Preparation c s w)
    (hblock : c.BlockSetsVars) :
    c.Precedes w.creation ∧ Undecided c.pipeline s w.creation.pipeline w.stores := by
  cases h with
  | unnumbered notes refused =>
      exact ⟨precedes_of_pipeline (c.numbering_undecided s).precedes, c.numbering_undecided s⟩
  | unregistered notes numbered refused =>
      exact ⟨precedes_of_pipeline (c.registering_undecided s).precedes, c.registering_undecided s⟩
  | prepared notes numbered registered =>
      obtain ⟨hway, hundecided, -⟩ := registered_undecided hblock s
      exact ⟨hway, hundecided⟩

/-- A prepared creation has the number that it has taken, and nothing else changes
the sequences. -/
theorem Preparation.number {c : Creation} {s : Stores} {w : Work} (h : Preparation c s w)
    (hblock : c.BlockSetsVars) :
    w.creation.pipeline.iid = (c.numbering s).pipeline.iid ∧
      w.stores.sequences = (c.numbering s).stores.sequences := by
  obtain ⟨hiid, hsequences⟩ :=
    Pipeline.register_iid (c.numbering s).pipeline (c.numbering s).stores
  cases h with
  | unnumbered notes refused => exact ⟨rfl, rfl⟩
  | unregistered notes numbered refused => exact ⟨hiid, hsequences⟩
  | prepared notes numbered registered =>
      exact ⟨(registered_undecided hblock s).2.2, hsequences⟩

/-- A creation that is done being prepared has a number. -/
theorem Preparation.iid_of_ok {c : Creation} {s : Stores} {w : Work} (h : Preparation c s w)
    (hblock : c.BlockSetsVars) (hok : w.result = .ok ()) :
    ∃ n, w.creation.pipeline.iid = some n := by
  obtain ⟨hiid, -⟩ := h.number hblock
  cases h with
  | unnumbered notes refused => cases hok
  | unregistered notes numbered refused => cases hok
  | prepared notes numbered registered =>
      exact ⟨_, hiid.trans (Pipeline.iid_of_takeNumber numbered)⟩

end Creation

end CiPipeline
