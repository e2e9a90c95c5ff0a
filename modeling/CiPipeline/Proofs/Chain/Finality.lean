/-
  CiPipeline.Proofs.Chain.Finality
  ────────────────────────────────
  **Which links change a status that ought to be final.**

  A run gives its links turns, one after the other.  No link asks whether the
  pipeline is made or has failed for good already: a link that finds a mistake fails
  a pipeline that is made, and the last link makes a pipeline that has failed.  These
  turns, and those of a seed block that sets the status itself, are all that overturn
  a terminal status (`Turn.overturns_iff`).  The statuses of a pipeline go from turn to
  turn (`Chain.threaded`).
-/
import CiPipeline.Proofs.Chain.Decision

namespace CiPipeline

open Creation (rejection?)

/-! ## §1. Turns. -/

/-- A status may come before another one: a terminal one comes before itself only. -/
def Status.MayPrecede (σ τ : Status) : Prop := σ.isTerminal = true → τ = σ

instance (σ τ : Status) : Decidable (σ.MayPrecede τ) :=
  inferInstanceAs (Decidable (σ.isTerminal = true → τ = σ))

theorem Status.MayPrecede.trans {σ τ υ : Status} (h : σ.MayPrecede τ) (h' : τ.MayPrecede υ) :
    σ.MayPrecede υ := by
  intro hterminal
  have hτ := h hterminal
  rw [← hτ] at hterminal ⊢
  exact h' hterminal

/-- The turn of a link in a run, and what is there when it comes. -/
structure Turn (L : Type) where
  link : L
  creation : Creation
  stores : Stores

namespace Turn

variable {L : Type} [Link L]

/-- The status that a link finds. -/
def before (t : Turn L) : Status := t.creation.pipeline.status

/-- The status that a link leaves behind. -/
def after (t : Turn L) : Status := (Link.work t.link t.creation t.stores).creation.pipeline.status

/-- From one status to another one by turns, each of which finds what the one before it has
left behind. -/
inductive Threaded : Status → List (Turn L) → Status → Prop where
  | nil (σ : Status) : Threaded σ [] σ
  | cons {t : Turn L} {turns : List (Turn L)} {τ : Status} (rest : Threaded t.after turns τ) :
      Threaded t.before (t :: turns) τ

variable {σ τ υ : Status} {turns turns' : List (Turn L)}

theorem Threaded.append (h : Threaded σ turns τ) (h' : Threaded τ turns' υ) :
    Threaded σ (turns ++ turns') υ := by
  induction h with
  | nil => exact h'
  | cons _ ih => exact .cons (ih h')

/-- **Terminal statuses are final exactly if no turn changes one.** -/
theorem Threaded.final_iff (h : Threaded σ turns τ) :
    (σ :: turns.map after).Pairwise Status.MayPrecede ↔
      ∀ t ∈ turns, t.before.MayPrecede t.after := by
  induction h with
  | nil σ => simp
  | @cons t turns τ rest ih =>
      rw [List.map_cons, List.pairwise_cons, ih, List.forall_mem_cons, List.forall_mem_cons]
      refine ⟨fun hfinal => ⟨hfinal.1.1, hfinal.2⟩, fun hturns => ⟨⟨hturns.1, ?_⟩, hturns.2⟩⟩
      -- a terminal status that the first turn has kept is kept by all others
      intro υ hυ
      exact hturns.1.trans (List.rel_of_pairwise_cons (ih.mpr hturns.2) hυ)

end Turn

namespace Chain

variable {L : Type} [Link L]

/-- The turns of the links that a run performs. -/
def turns : List L → Creation → Stores → List (Turn L)
  | [], _, _ => []
  | link :: links, c, s =>
      let p := Link.work link c s
      ⟨link, c, s⟩ ::
        match p.result with
        | .error _ => []
        | .ok _ => if Link.halts p.link p.creation then [] else turns links p.creation p.stores

/-- **A run takes the status of the pipeline from turn to turn.** -/
theorem threaded (a : RunAttributes) (performed : List String) (links : List L) (c : Creation)
    (s : Stores) :
    Turn.Threaded c.pipeline.status (turns links c s)
      (runFrom a performed links c s).creation.pipeline.status := by
  induction links generalizing performed c s with
  | nil => exact .nil _
  | cons link links ih =>
      have hrest := ih (performed ++ [Link.name link]) (Link.work link c s).creation
        (Link.work link c s).stores
      refine Turn.Threaded.cons (t := ⟨link, c, s⟩) ?_
      unfold runFrom
      dsimp only
      -- a link that fails and a link after which the chain halts have the last turn
      cases (Link.work link c s).result with
      | error e => exact .nil _
      | ok u =>
          dsimp only
          split
          case isTrue => exact .nil _
          case isFalse => exact hrest

end Chain

/-! ## §2. What overturns a terminal status. -/

/-- The turns that change a terminal status. -/
inductive Turn.Overturns [Regex.Engine] : Turn CreationLink → Prop where
  /-- The seed block sets the status while the creation is prepared. -/
  | blockAtOnce {memo : Option GraphMemo} {c : Creation} {s : Stores} {d : Definition}
      (terminal : c.pipeline.status.isTerminal = true) (definition : c.definition = some d)
      (prepared : (c.prepare s).result = .ok ())
      (valid : ((c.prepare s).creation.graphWith memo d).1.isValid = true)
      (changed : (c.prepare s).creation.pipeline.status ≠ c.pipeline.status) :
      Overturns ⟨.seed memo, c, s⟩
  /-- The deferred seed block sets the status. -/
  | blockDeferred {c : Creation} {s : Stores} (terminal : c.pipeline.status.isTerminal = true)
      (changed : c.blockDeferred.pipeline.status ≠ c.pipeline.status) :
      Overturns ⟨.seedBlock, c, s⟩
  /-- The pipeline is made, and meets a graph with problems. -/
  | invalid {memo : Option GraphMemo} {c : Creation} {s : Stores} {d : Definition}
      (created : c.pipeline.status = .created) (definition : c.definition = some d)
      (prepared : (c.prepare s).result = .ok ())
      (invalid : ((c.prepare s).creation.graphWith memo d).1.isValid = false) :
      Overturns ⟨.seed memo, c, s⟩
  /-- The pipeline is made, and the rules of the workflow do not let its ref pass. -/
  | filtered {c : Creation} {s : Stores} {d : Definition} {rejection : String × FailureReason}
      (created : c.pipeline.status = .created) (definition : c.definition = some d)
      (verdict : rejection? (Rule.judge d.workflowRules c.pipeline.refName .always) =
        some rejection) :
      Overturns ⟨.workflowRules, c, s⟩
  /-- The pipeline is made, and its graph has no jobs. -/
  | empty {c : Creation} {s : Stores} {g : Graph} (created : c.pipeline.status = .created)
      (graph : c.graph = some g) (empty : g.size = 0) :
      Overturns ⟨.create, c, s⟩
  /-- The pipeline has failed, and is persisted all the same. -/
  | persisted {c : Creation} {s : Stores} {g : Graph} (failed : c.pipeline.status = .failed)
      (graph : c.graph = some g) (nonempty : g.size ≠ 0)
      (healthy : s.faults.repository = none) :
      Overturns ⟨.create, c, s⟩
  /-- The pipeline is made, and a probe records a mistake. -/
  | mistaken {l : Probe} {c : Creation} {s : Stores} {mistake : String × FailureReason}
      (created : c.pipeline.status = .created) (fatal : l.fatal = none)
      (recorded : l.mistake = some mistake) :
      Overturns ⟨.probe l, c, s⟩

namespace Turn

/-- A rejection changes a terminal status exactly if the pipeline is made. -/
theorem failed_ne_iff {σ : Status} : σ.isTerminal = true ∧ Status.failed ≠ σ ↔ σ = .created := by
  cases σ <;> decide

/-- Persisting changes a terminal status exactly if the pipeline has failed. -/
theorem created_ne_iff {σ : Status} : σ.isTerminal = true ∧ Status.created ≠ σ ↔ σ = .failed := by
  cases σ <;> decide

theorem reject_status (c : Creation) (message : String) (reason : FailureReason) :
    (c.reject message reason).pipeline.status = .failed :=
  (Pipeline.failed_reject c.pipeline message reason).2

/-! ## §3. One link after the other. -/

variable [Regex.Engine] {c : Creation} {s : Stores}

theorem after_seed_of_undefined {memo : Option GraphMemo} (h : c.definition = none) :
    after ⟨CreationLink.seed memo, c, s⟩ = c.pipeline.status := by
  unfold after
  rw [work_seed_of_undefined h]

theorem after_seed_of_refused {memo : Option GraphMemo} {d : Definition} {e : CreationError}
    (hdefinition : c.definition = some d) (hrefused : (c.prepare s).result = .error e) :
    after ⟨CreationLink.seed memo, c, s⟩ = c.pipeline.status := by
  unfold after
  rw [work_seed_of_refused hdefinition hrefused]
  exact (Creation.prepare_verdict_of_error hrefused).status

/-- What seeding makes of the status of a creation that is prepared. -/
theorem after_seed {memo : Option GraphMemo} {d : Definition}
    (hdefinition : c.definition = some d) (hprepared : (c.prepare s).result = .ok ()) :
    after ⟨CreationLink.seed memo, c, s⟩ =
      if ((c.prepare s).creation.graphWith memo d).1.isValid
      then (c.prepare s).creation.pipeline.status else .failed := by
  have hseeded : Creation.Seeded memo c s d _ _ _ := ⟨hdefinition, hprepared, rfl, rfl, rfl⟩
  obtain ⟨notes, hwork⟩ := work_seed hseeded
  unfold after
  rw [hwork]
  cases hvalid : ((c.prepare s).creation.graphWith memo d).1.isValid with
  | true => rw [Creation.attach_of_valid hvalid, if_pos rfl]
  | false =>
      rw [Creation.attach_of_invalid hvalid, reject_status, if_neg Bool.false_ne_true]

theorem after_rules_of_undefined (h : c.definition = none) :
    after ⟨CreationLink.workflowRules, c, s⟩ = c.pipeline.status := by
  show (c.filter s).creation.pipeline.status = _
  unfold Creation.filter
  rw [h]
  rfl

theorem after_rules {d : Definition} (hdefinition : c.definition = some d) :
    after ⟨CreationLink.workflowRules, c, s⟩ =
      match rejection? (Rule.judge d.workflowRules c.pipeline.refName .always) with
      | none => c.pipeline.status
      | some _ => .failed := by
  obtain ⟨notes, hwork⟩ := work_rules hdefinition s
  unfold after
  rw [hwork]
  cases rejection? (Rule.judge d.workflowRules c.pipeline.refName .always) with
  | none => rfl
  | some rejection => exact reject_status _ _ _

theorem after_block (c : Creation) (s : Stores) :
    after ⟨CreationLink.seedBlock, c, s⟩ = c.blockDeferred.pipeline.status := by
  obtain ⟨notes, hwork⟩ := work_block c s
  unfold after
  rw [hwork]

theorem after_create_of_ungraphed (h : c.graph = none) :
    after ⟨CreationLink.create, c, s⟩ = c.pipeline.status := by
  show (c.create s).creation.pipeline.status = _
  unfold Creation.create
  rw [h]
  rfl

theorem after_create {g : Graph} (hgraph : c.graph = some g) :
    after ⟨CreationLink.create, c, s⟩ =
      if g.size = 0 then .failed
      else if s.faults.repository = none then .created else c.pipeline.status := by
  unfold after
  by_cases hsize : g.size = 0
  · rw [work_create_of_empty hgraph hsize, if_pos hsize]
    exact reject_status _ _ _
  · rw [if_neg hsize]
    cases hfault : s.faults.repository with
    | none =>
        obtain ⟨notes, hwork⟩ := work_create_of_healthy hgraph hsize hfault
        rw [hwork, if_pos rfl]
        rfl
    | some fault =>
        obtain ⟨notes, hwork⟩ := work_create_of_fault hgraph hsize hfault
        rw [hwork, if_neg nofun]

theorem after_probe (l : Probe) (c : Creation) (s : Stores) :
    after ⟨CreationLink.probe l, c, s⟩ =
      match l.fatal, l.mistake with
      | none, some _ => .failed
      | _, _ => c.pipeline.status := by
  show (l.work c s).1.creation.pipeline.status = _
  unfold Probe.work
  cases l.fatal with
  | some e => rfl
  | none =>
      cases l.mistake with
      | none => rfl
      | some mistake => exact reject_status c mistake.1 mistake.2

theorem Overturns.changed {t : Turn CreationLink} (h : t.Overturns) :
    t.before.isTerminal = true ∧ t.after ≠ t.before := by
  cases h with
  | blockAtOnce terminal definition prepared valid changed =>
      rw [after_seed definition prepared, if_pos valid]
      exact ⟨terminal, changed⟩
  | blockDeferred terminal changed =>
      rw [after_block]
      exact ⟨terminal, changed⟩
  | invalid created definition prepared invalid =>
      rw [after_seed definition prepared, invalid, if_neg Bool.false_ne_true]
      exact failed_ne_iff.mpr created
  | filtered created definition verdict =>
      rw [after_rules definition, verdict]
      exact failed_ne_iff.mpr created
  | empty created graph empty =>
      rw [after_create graph, if_pos empty]
      exact failed_ne_iff.mpr created
  | persisted failed graph nonempty healthy =>
      rw [after_create graph, if_neg nonempty, if_pos healthy]
      exact created_ne_iff.mpr failed
  | mistaken created fatal recorded =>
      rw [after_probe, fatal, recorded]
      exact failed_ne_iff.mpr created

theorem overturns_seed {memo : Option GraphMemo} (hterminal : c.pipeline.status.isTerminal = true)
    (hchanged : after ⟨CreationLink.seed memo, c, s⟩ ≠ c.pipeline.status) :
    Overturns ⟨.seed memo, c, s⟩ := by
  cases hdefinition : c.definition with
  | none => exact absurd (after_seed_of_undefined hdefinition) hchanged
  | some d =>
      cases hprepared : (c.prepare s).result with
      | error e => exact absurd (after_seed_of_refused hdefinition hprepared) hchanged
      | ok u =>
          rw [after_seed hdefinition hprepared] at hchanged
          cases hvalid : ((c.prepare s).creation.graphWith memo d).1.isValid with
          | true =>
              rw [hvalid, if_pos rfl] at hchanged
              exact .blockAtOnce hterminal hdefinition hprepared hvalid hchanged
          | false =>
              rw [hvalid, if_neg Bool.false_ne_true] at hchanged
              exact .invalid (failed_ne_iff.mp ⟨hterminal, hchanged⟩) hdefinition hprepared hvalid

theorem overturns_rules (hterminal : c.pipeline.status.isTerminal = true)
    (hchanged : after ⟨CreationLink.workflowRules, c, s⟩ ≠ c.pipeline.status) :
    Overturns ⟨.workflowRules, c, s⟩ := by
  cases hdefinition : c.definition with
  | none => exact absurd (after_rules_of_undefined hdefinition) hchanged
  | some d =>
      rw [after_rules hdefinition] at hchanged
      cases hverdict : rejection? (Rule.judge d.workflowRules c.pipeline.refName .always) with
      | none =>
          rw [hverdict] at hchanged
          exact absurd rfl hchanged
      | some rejection =>
          rw [hverdict] at hchanged
          exact .filtered (failed_ne_iff.mp ⟨hterminal, hchanged⟩) hdefinition hverdict

theorem overturns_create (hterminal : c.pipeline.status.isTerminal = true)
    (hchanged : after ⟨CreationLink.create, c, s⟩ ≠ c.pipeline.status) :
    Overturns ⟨.create, c, s⟩ := by
  cases hgraph : c.graph with
  | none => exact absurd (after_create_of_ungraphed hgraph) hchanged
  | some g =>
      rw [after_create hgraph] at hchanged
      by_cases hsize : g.size = 0
      · rw [if_pos hsize] at hchanged
        exact .empty (failed_ne_iff.mp ⟨hterminal, hchanged⟩) hgraph hsize
      · rw [if_neg hsize] at hchanged
        by_cases hhealthy : s.faults.repository = none
        · rw [if_pos hhealthy] at hchanged
          exact .persisted (created_ne_iff.mp ⟨hterminal, hchanged⟩) hgraph hsize hhealthy
        · rw [if_neg hhealthy] at hchanged
          exact absurd rfl hchanged

theorem overturns_probe {l : Probe} (hterminal : c.pipeline.status.isTerminal = true)
    (hchanged : after ⟨CreationLink.probe l, c, s⟩ ≠ c.pipeline.status) :
    Overturns ⟨.probe l, c, s⟩ := by
  rw [after_probe] at hchanged
  cases hfatal : l.fatal with
  | some e =>
      rw [hfatal] at hchanged
      exact absurd rfl hchanged
  | none =>
      cases hmistake : l.mistake with
      | none =>
          rw [hfatal, hmistake] at hchanged
          exact absurd rfl hchanged
      | some mistake =>
          rw [hfatal, hmistake] at hchanged
          exact .mistaken (failed_ne_iff.mp ⟨hterminal, hchanged⟩) hfatal hmistake

/-- **The turns that overturn a terminal status are those that change one.** -/
theorem overturns_iff (t : Turn CreationLink) :
    t.Overturns ↔ t.before.isTerminal = true ∧ t.after ≠ t.before := by
  refine ⟨Overturns.changed, ?_⟩
  intro h
  obtain ⟨hterminal, hchanged⟩ := h
  obtain ⟨link, c, s⟩ := t
  cases link with
  | seed memo => exact overturns_seed hterminal hchanged
  | workflowRules => exact overturns_rules hterminal hchanged
  | seedBlock => exact .blockDeferred hterminal (after_block c s ▸ hchanged)
  | create => exact overturns_create hterminal hchanged
  | probe l => exact overturns_probe hterminal hchanged

end Turn

end CiPipeline
