/-
  CiPipeline.Proofs.History.Numbers
  ─────────────────────────────────
  **When the numbers of a project are distinct in the repository.**

  No two creations take the same number of a project, and a creation keeps the
  number that it has taken.  But nothing stops a creation that has been persisted
  from being persisted once more, and then its number stands in the repository
  twice.  So the numbers in the repository are distinct exactly as long as no
  creation has two complete runs (`committed_keys_nodup_iff`).
-/
import CiPipeline.Proofs.History.Records
import CiPipeline.Proofs.Store.Sequence

namespace CiPipeline

/-! ## §1. Keys. -/

/-- What ought to tell a pipeline from all others: its project and its number. -/
structure PipelineKey where
  projectId : ProjectId
  iid : Option Int64
  deriving DecidableEq, Repr

/-- The key of a pipeline. -/
def Pipeline.key (p : Pipeline) : PipelineKey := ⟨p.projectId, p.iid⟩

/-- The key of a record. -/
def StoredPipeline.key (r : StoredPipeline) : PipelineKey := ⟨r.projectId, r.iid⟩

/-- The last number that a project has handed out to a pipeline, or zero. -/
def Sequences.lastOf (s : Sequences) (project : ProjectId) : Int :=
  ((s.current? (.pipelines project)).getD 0).toInt

/-- A number that is handed out comes behind the last one of its project, and the
other projects do not hear of it. -/
theorem Sequences.lastOf_of_next {s t : Sequences} {project : ProjectId} {n : Int64}
    (h : s.next (.pipelines project) = (.ok n, t)) :
    n.toInt = s.lastOf project + 1 ∧
      ∀ other, t.lastOf other = if other = project then n.toInt else s.lastOf other := by
  obtain ⟨hn, rfl⟩ := next_eq_ok h
  refine ⟨hn, ?_⟩
  intro other
  unfold lastOf
  rw [current?_set]
  by_cases hother : other = project
  · rw [if_pos hother, if_pos (by rw [hother])]
    rfl
  · have hscope : SequenceScope.pipelines other ≠ .pipelines project := by
      intro heq
      exact hother (SequenceScope.mk.inj heq).2
    rw [if_neg hother, if_neg hscope]

/-! ## §2. Numbers that have been taken and kept. -/

/-- Creations have numbers that their projects have handed out, each a number of its
own, and the keys that are kept are those of the creations that are done. -/
structure Numbered (keys : Nat → PipelineKey) (s : Sequences) (kept : List PipelineKey)
    (done : List Nat) : Prop where
  handedOut : ∀ c n, (keys c).iid = some n → n.toInt ≤ s.lastOf (keys c).projectId
  distinct : ∀ c c' n, (keys c).projectId = (keys c').projectId →
    (keys c).iid = some n → (keys c').iid = some n → c = c'
  numbered : ∀ c ∈ done, ∃ n, (keys c).iid = some n
  kept_eq : kept = done.map keys

namespace Numbered

variable {keys : Nat → PipelineKey} {s t : Sequences} {kept : List PipelineKey} {done : List Nat}

/-- As long as no creation has a number, all is well. -/
theorem start (h : ∀ c, (keys c).iid = none) : Numbered keys s [] [] where
  handedOut := fun c n hn => by rw [h c] at hn; cases hn
  distinct := fun c c' n _ hn _ => by rw [h c] at hn; cases hn
  numbered := fun c hc => absurd hc List.not_mem_nil
  kept_eq := rfl

/-- A creation without a number takes the next one of its project. -/
theorem take (h : Numbered keys s kept done) {c : Nat} {n : Int64} (hnone : (keys c).iid = none)
    (hnext : s.next (.pipelines (keys c).projectId) = (.ok n, t)) :
    Numbered (Function.update keys c ⟨(keys c).projectId, some n⟩) t kept done := by
  obtain ⟨hn, hlast⟩ := Sequences.lastOf_of_next hnext
  have hself := Function.update_self c (⟨(keys c).projectId, some n⟩ : PipelineKey) keys
  have hother : ∀ c', c' ≠ c → Function.update keys c ⟨(keys c).projectId, some n⟩ c' = keys c' :=
    fun c' hc' => Function.update_of_ne hc' _ _
  -- nobody else in the project has the new number
  have hfresh : ∀ c', c' ≠ c → (keys c').projectId = (keys c).projectId →
      (keys c').iid ≠ some n := by
    intro c' _ hproject hm
    have hle := h.handedOut c' n hm
    rw [hproject] at hle
    omega
  -- whoever is done has a number, so it is not the one that takes its number now
  have hdone : ∀ c' ∈ done, c' ≠ c := by
    intro c' hc' heq
    obtain ⟨m, hm⟩ := h.numbered c' hc'
    rw [heq, hnone] at hm
    cases hm
  refine ⟨?_, ?_, ?_, ?_⟩
  · intro c' m hm
    by_cases hc' : c' = c
    · rw [hc', hself] at hm ⊢
      cases hm
      show n.toInt ≤ t.lastOf (keys c).projectId
      have hnow := hlast (keys c).projectId
      rw [if_pos rfl] at hnow
      omega
    · rw [hother c' hc'] at hm ⊢
      have hle := h.handedOut c' m hm
      rw [hlast]
      split
      case isTrue hproject =>
        rw [hproject] at hle
        omega
      case isFalse => exact hle
  · intro a b m hproject ha hb
    by_cases hac : a = c
    · by_cases hbc : b = c
      · rw [hac, hbc]
      · rw [hac, hself] at hproject ha
        rw [hother b hbc] at hproject hb
        cases ha
        exact absurd hb (hfresh b hbc hproject.symm)
    · by_cases hbc : b = c
      · rw [hbc, hself] at hproject hb
        rw [hother a hac] at hproject ha
        cases hb
        exact absurd ha (hfresh a hac hproject)
      · rw [hother a hac] at hproject ha
        rw [hother b hbc] at hproject hb
        exact h.distinct a b m hproject ha hb
  · intro c' hc'
    rw [hother c' (hdone c' hc')]
    exact h.numbered c' hc'
  · rw [h.kept_eq]
    apply List.map_congr_left
    intro c' hc'
    rw [hother c' (hdone c' hc')]

/-- The key of a numbered creation is kept. -/
theorem keep (h : Numbered keys s kept done) {c : Nat} (hc : ∃ n, (keys c).iid = some n) :
    Numbered keys s (kept ++ [keys c]) (done ++ [c]) := by
  refine ⟨h.handedOut, h.distinct, ?_, ?_⟩
  · intro c' hc'
    rcases List.mem_append.mp hc' with hc' | hc'
    · exact h.numbered c' hc'
    · rw [List.mem_singleton.mp hc']
      exact hc
  · rw [List.map_append, h.kept_eq]
    rfl

/-- **The kept keys are distinct exactly as long as no creation is done twice.** -/
theorem kept_nodup_iff (h : Numbered keys s kept done) : kept.Nodup ↔ done.Nodup := by
  rw [h.kept_eq]
  constructor
  · exact List.Nodup.of_map keys
  · -- different creations have different keys, as long as they have numbers
    intro hdone
    refine hdone.map_on ?_
    intro a ha b hb heq
    obtain ⟨n, hn⟩ := h.numbered a ha
    exact h.distinct a b n (by rw [heq]) hn (by rw [← heq]; exact hn)

end Numbered

/-! ## §3. Histories. -/

/-- The act leaves the stores in their places. -/
def Act.keepsStores : Act → Bool
  | .exchange _ _ => false
  | _ => true

namespace World

/-- The key of a creation's pipeline. -/
def keyOf (w : World) (c : Nat) : PipelineKey := (w.creations c).pipeline.key

/-- The keys in the repository. -/
def committedKeys (w : World) : List PipelineKey :=
  w.stores.repository.pipelines.map (·.key)

section

variable [Regex.Engine]

/-- The creation whose run is complete, if the act is such a run. -/
def completed (w : World) : Act → List Nat
  | .run c e => if (w.runOf c e).isComplete then [c] else []
  | _ => []

/-- The creations whose runs are complete, once for each such run. -/
def completions (w : World) : List Act → List Nat
  | [] => []
  | a :: acts => w.completed a ++ (w.step a).completions acts

theorem keyOf_step_run (w : World) (c e : Nat) :
    (w.step (.run c e)).keyOf =
      Function.update w.keyOf c (w.runOf c e).creation.pipeline.key :=
  Function.comp_update (fun d : Creation => d.pipeline.key) w.creations c _

theorem keyOf_step_redefine (w : World) (c : Nat) (d : Option Definition) :
    (w.step (.redefine c d)).keyOf = w.keyOf := by
  have hupdate := Function.comp_update (fun d : Creation => d.pipeline.key) w.creations c
    { w.creations c with definition := d }
  exact hupdate.trans (Function.update_eq_self c w.keyOf)

/-- A run gives its creation the next number of the project, or leaves all numbers as
they are. -/
theorem Sound.numbered_run {w : World} (h : w.Sound) {kept : List PipelineKey} {done : List Nat}
    (hnumbered : Numbered w.keyOf w.stores.sequences kept done) (c e : Nat) :
    Numbered (w.step (.run c e)).keyOf (w.runOf c e).stores.sequences kept done := by
  obtain ⟨memo, -, hending⟩ := h.ending c e
  have hproject := (hending.precedes (h.blocks c)).pipeline.projectId
  rw [keyOf_step_run]
  unfold Pipeline.key
  rw [hproject]
  -- the run changes one key at most, that of its own creation
  obtain ⟨hiid, hsequences⟩ | ⟨hnone, n, hiid, hnext⟩ := hending.number_cases (h.blocks c)
  · rw [hiid, hsequences]
    show Numbered (Function.update w.keyOf c (w.keyOf c)) w.stores.sequences kept done
    rw [Function.update_eq_self]
    exact hnumbered
  · rw [hiid]
    exact hnumbered.take hnone hnext

/-- Whatever happens, the keys in the repository stay those of the creations whose runs
have been complete. -/
theorem Sound.numbered_step {w : World} (h : w.Sound) {done : List Nat}
    (hnumbered : Numbered w.keyOf w.stores.sequences w.committedKeys done) {a : Act}
    (ha : a.keepsStores = true) :
    Numbered (w.step a).keyOf (w.step a).stores.sequences (w.step a).committedKeys
      (done ++ w.completed a) := by
  cases a with
  | run c e =>
      have hrun := h.numbered_run hnumbered c e
      obtain ⟨memo, hmemo, hending⟩ := h.ending c e
      show Numbered _ (w.runOf c e).stores.sequences
        ((w.runOf c e).stores.repository.pipelines.map (·.key))
        (done ++ if (w.runOf c e).isComplete then [c] else [])
      obtain ⟨hcomplete, n, hrepository⟩ | ⟨hcomplete, g, -, -, -, ⟨n, hiid⟩, hrepository⟩ :=
        hending.repository (h.blocks c) hmemo
      · rw [hcomplete, hrepository, if_neg Bool.false_ne_true, List.append_nil]
        exact hrun
      · -- the new record has the key that the pipeline has after the run
        have hkey : (w.step (.run c e)).keyOf c = (w.runOf c e).creation.pipeline.key := by
          rw [keyOf_step_run, Function.update_self]
        have hkept := hrun.keep (c := c) ⟨n, by rw [hkey]; exact hiid⟩
        rw [hkey] at hkept
        rw [hcomplete, hrepository, if_pos rfl]
        show Numbered _ _ (List.map StoredPipeline.key (w.stores.repository.pipelines ++ [_])) _
        rw [List.map_append]
        exact hkept
  | redefine c d =>
      rw [keyOf_step_redefine]
      show Numbered _ _ _ (done ++ [])
      rw [List.append_nil]
      exact hnumbered
  | fail faults =>
      show Numbered _ _ _ (done ++ [])
      rw [List.append_nil]
      exact hnumbered
  | exchange sequences ciRefs => cases ha

theorem Sound.numbered_play {w : World} (h : w.Sound) {done : List Nat}
    (hnumbered : Numbered w.keyOf w.stores.sequences w.committedKeys done) {acts : List Act}
    (hacts : ∀ a ∈ acts, a.keepsStores = true) :
    Numbered (w.play acts).keyOf (w.play acts).stores.sequences (w.play acts).committedKeys
      (done ++ w.completions acts) := by
  induction acts generalizing w done with
  | nil =>
      show Numbered _ _ _ (done ++ [])
      rw [List.append_nil]
      exact hnumbered
  | cons a acts ih =>
      have hstep := h.numbered_step hnumbered (hacts a List.mem_cons_self)
      have hplay := ih (h.step a) hstep fun b hb => hacts b (List.mem_cons_of_mem a hb)
      rw [List.append_assoc] at hplay
      exact hplay

/-- **In stores that are shared from the start, no two records have the same project
and number exactly as long as no creation has two complete runs.** -/
theorem committed_keys_nodup_iff {w : World} (hexecutors : ∀ e, w.executors e = Chain.standard)
    (hblocks : ∀ c, (w.creations c).BlockSetsVars)
    (hunnumbered : ∀ c, (w.creations c).pipeline.iid = none)
    (hempty : w.stores.repository = .empty) {acts : List Act}
    (hacts : ∀ a ∈ acts, a.keepsStores = true) :
    (w.play acts).committedKeys.Nodup ↔ (w.completions acts).Nodup := by
  have hkeys : w.committedKeys = [] := by
    unfold committedKeys
    rw [hempty]
    rfl
  have hstart : Numbered w.keyOf w.stores.sequences w.committedKeys [] := by
    rw [hkeys]
    exact .start hunnumbered
  have hplay := (sound_of_standard hexecutors hblocks).numbered_play hstart hacts
  exact hplay.kept_nodup_iff

end

/-- Each creation of the sample has one complete run, although one of them is run twice. -/
theorem committed_keys_nodup_sample :
    sample.completions sampleActs = [0, 1, 2] ∧
      (sample.play sampleActs).committedKeys.Nodup := by
  have hcompletions : sample.completions sampleActs = [0, 1, 2] := by decide +kernel
  refine ⟨hcompletions, ?_⟩
  refine (committed_keys_nodup_iff (fun _ => rfl) sample_blocks (fun _ => rfl) rfl ?_).mpr ?_
  · decide
  · rw [hcompletions]
    decide

/-- A creation that is run again after a complete run is persisted again, under the
number that it has. -/
theorem committed_keys_repeated :
    (sample.play [.run 0 0, .run 0 0]).committedKeys = [⟨⟨1⟩, some 1⟩, ⟨⟨1⟩, some 1⟩] ∧
      ¬(sample.play [.run 0 0, .run 0 0]).committedKeys.Nodup := by
  decide +kernel

end World

end CiPipeline
