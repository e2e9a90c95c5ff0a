/-
  CiPipeline.Proofs.Chain.Reuse
  ─────────────────────────────
  **An executor that is used again does what a new one does.**

  The first link of the standard chain keeps the graph that it has built last, for the
  creation that it has built it for.  A creation with an identity of its own is none the
  wiser: what has been kept for another one is not looked at (`Run.shown_of_other`), and
  what is kept afterwards belongs to the new creation.  So a chain that does one task
  after the other shows what new chains for the same tasks show, whatever became of the
  tasks before.

  Main statement: `serve_standard`.
-/
import CiPipeline.Proofs.Chain.Retry

namespace CiPipeline

open Creation (KeepsNothingFor)

/-! ## §1. Tasks. -/

/-- A run to come.  It finds its stores in what is around, and what it makes of them is put
back there: tasks may share their stores or have their own, and stores may fail or be changed
from one task to the next. -/
structure Task (σ : Type) where
  creation : Creation
  find : σ → Stores
  putBack : Stores → σ → σ

namespace Chain

variable {L σ : Type} [Link L]

/-- The runs of a chain on one task after the other, with the links that the run before has
left, and what is around afterwards. -/
def serve (chain : Chain L) : List (Task σ) → σ → List (Run L) × σ
  | [], x => ([], x)
  | task :: tasks, x =>
      let r := chain.run task.creation (task.find x)
      let rest := serve ⟨r.links⟩ tasks (task.putBack r.stores x)
      (r :: rest.1, rest.2)

/-- The runs of a chain that is made anew for every task. -/
def serveAnew (chain : Chain L) : List (Task σ) → σ → List (Run L) × σ
  | [], x => ([], x)
  | task :: tasks, x =>
      let r := chain.run task.creation (task.find x)
      let rest := serveAnew chain tasks (task.putBack r.stores x)
      (r :: rest.1, rest.2)

end Chain

/-- All that a run shows: its answer, what it leaves behind, and what it has told.  Only its
links do not show. -/
def Run.shown {L : Type} (r : Run L) :
    (Except CreationError Outcome × Creation × Stores) × List Notice :=
  (r.upshot, r.trace)

/-! ## §2. A chain that has run other creations. -/

namespace Run

variable {L : Type} [Link L] {a : RunAttributes} {before : List String}
  {link link' next next' : L} {links : List L} {c d : Creation} {s t : Stores}
  {result : Except CreationError Unit} {notes : List Note}

/-- Two links that do the same, and halt the chain or not, show the same. -/
theorem shown_congr (hname : Link.name link' = Link.name link)
    (h : Link.work link c s = ⟨result, next, d, t, notes⟩)
    (h' : Link.work link' c s = ⟨result, next', d, t, notes⟩)
    (hhalts : Link.halts next' d = Link.halts next d) :
    (Chain.runFrom a before (link' :: links) c s).shown =
      (Chain.runFrom a before (link :: links) c s).shown := by
  cases result with
  | error e =>
      rw [Chain.runFrom_cons_of_error h, Chain.runFrom_cons_of_error h', hname]
      rfl
  | ok u =>
      cases hlast : Link.halts next d with
      | true =>
          rw [hlast] at hhalts
          rw [Chain.runFrom_cons_of_halts h hlast, Chain.runFrom_cons_of_halts h' hhalts, hname]
          rfl
      | false =>
          rw [hlast] at hhalts
          rw [Chain.runFrom_cons_of_goesOn h hlast, Chain.runFrom_cons_of_goesOn h' hhalts, hname]
          rfl

variable [Regex.Engine]

/-- **A chain that has kept nothing for a creation shows what a new chain shows.** -/
theorem shown_of_other {memo : Option GraphMemo} {c : Creation}
    (h : KeepsNothingFor memo c.runId) (s : Stores) :
    ((Chain.standardWith memo).run c s).shown = (Chain.standard.run c s).shown := by
  have hseed := Creation.seed_of_other h s
  have hwork : Link.work (CreationLink.seed memo) c s =
      (c.seed none s).1.leaving (.seed (c.seed memo s).2) := by
    show (c.seed memo s).1.leaving (CreationLink.seed (c.seed memo s).2) = _
    rw [hseed]
  have hwork' : Link.work (CreationLink.seed none) c s =
      (c.seed none s).1.leaving (.seed (c.seed none s).2) := rfl
  have hrest : (Chain.runFrom (Chain.attributes c) [] (Chain.standardWith memo).links c s).shown =
      (Chain.runFrom (Chain.attributes c) [] Chain.standard.links c s).shown :=
    shown_congr rfl hwork' hwork rfl
  -- the events before the first link tell the names of the links, which are the same
  obtain ⟨hupshot, htrace⟩ := Prod.mk.inj hrest
  refine Prod.ext hupshot ?_
  show _ :: _ :: (Chain.runFrom _ [] (Chain.standardWith memo).links c s).trace = _
  rw [htrace]
  rfl

end Run

section

variable [Regex.Engine]

/-- After a run a chain keeps what it has kept before, or a graph for the creation that has
been run. -/
theorem Ending.keeps {memo : Option GraphMemo} {c : Creation} {s : Stores} {r : Run CreationLink}
    (h : Ending memo c s r) :
    ∃ kept, r.links = (Chain.standardWith kept).links ∧
      ∀ m, kept = some m → memo = some m ∨ m.runId = c.runId := by
  have hown : ∀ g m, some ⟨(c.prepare s).creation.runId, g⟩ = some m →
      memo = some m ∨ m.runId = c.runId := by
    intro g m hm
    cases hm
    exact .inr (c.prepare_runId s)
  cases h with
  | undefined trace definition => exact ⟨memo, rfl, fun m hm => .inl hm⟩
  | unprepared trace definition refused => exact ⟨memo, rfl, fun m hm => .inl hm⟩
  -- once the creation has been seeded, its own graph is the one that is kept
  | haltedAtSeed trace seeded mistaken => exact ⟨_, rfl, hown _⟩
  | haltedAtRules trace seeded clean verdict => exact ⟨_, rfl, hown _⟩
  | haltedAtBlock trace passed mistaken => exact ⟨_, rfl, hown _⟩
  | haltedAtCreate trace ready empty => exact ⟨_, rfl, hown _⟩
  | unpersisted trace ready nonempty faulty => exact ⟨_, rfl, hown _⟩
  | complete trace ready nonempty healthy => exact ⟨_, rfl, hown _⟩

/-! ## §3. One task after the other. -/

namespace Chain

variable {σ : Type}

/-- A chain that has kept nothing for any of its tasks does them as new chains do. -/
theorem serve_of_other (tasks : List (Task σ)) :
    ∀ (memo : Option GraphMemo) (x : σ),
      (∀ task ∈ tasks, KeepsNothingFor memo task.creation.runId) →
      (tasks.map (·.creation.runId)).Nodup →
      ((standardWith memo).serve tasks x).1.map Run.shown =
          (standard.serveAnew tasks x).1.map Run.shown ∧
        ((standardWith memo).serve tasks x).2 = (standard.serveAnew tasks x).2 := by
  induction tasks with
  | nil =>
      intro memo x _ _
      exact ⟨rfl, rfl⟩
  | cons task tasks ih =>
      intro memo x hother hnodup
      have hfirst : KeepsNothingFor memo task.creation.runId := hother task List.mem_cons_self
      obtain ⟨hnew, hnodup'⟩ := List.nodup_cons.mp hnodup
      have hshown := Run.shown_of_other hfirst (task.find x)
      obtain ⟨kept, hlinks, hkept⟩ :=
        (run_ending memo task.creation (task.find x)).keeps
      -- what is kept now has been kept before, or belongs to this task and to no other
      have hother' : ∀ task' ∈ tasks, KeepsNothingFor kept task'.creation.runId := by
        intro task' htask' m hm hrunId
        obtain hbefore | hown := hkept m hm
        · exact hother task' (List.mem_cons_of_mem _ htask') m hbefore hrunId
        · apply hnew
          show task.creation.runId ∈ _
          rw [← hown, hrunId]
          exact List.mem_map_of_mem htask'
      have hstores : ((standardWith memo).run task.creation (task.find x)).stores =
          (standard.run task.creation (task.find x)).stores :=
        congrArg (fun y => y.1.2.2) hshown
      obtain ⟨hruns, haround⟩ := ih kept
        (task.putBack (standard.run task.creation (task.find x)).stores x) hother' hnodup'
      unfold serve serveAnew
      dsimp only
      rw [hlinks, hstores, List.map_cons, List.map_cons, hshown]
      exact ⟨congrArg _ hruns, haround⟩

end Chain

/-- **A chain that does one task after the other shows what new chains show for the same
tasks**, and leaves the same around, as long as the creations are told apart. -/
theorem serve_standard {σ : Type} {tasks : List (Task σ)}
    (hdistinct : (tasks.map (·.creation.runId)).Nodup) (x : σ) :
    (Chain.standard.serve tasks x).1.map Run.shown =
        (Chain.standard.serveAnew tasks x).1.map Run.shown ∧
      (Chain.standard.serve tasks x).2 = (Chain.standard.serveAnew tasks x).2 :=
  Chain.serve_of_other tasks none x (fun _ _ => nofun) hdistinct

end

/-- A task on shared stores of which some fail. -/
def Task.amid (c : Creation) (faults : Faults) : Task Stores where
  creation := c
  find := fun s => { s with faults := faults }
  putBack := fun t _ => t

/-- Tasks of all kinds: the creations are valid, dropped by the rules of the workflow, invalid
and valid, and the last one but one meets a repository that refuses commits. -/
def Task.samples : List (Task Stores) :=
  [.amid { Creation.sample with runId := ⟨"0"⟩ } .none,
   .amid { Creation.dropped with runId := ⟨"1"⟩ } .none,
   .amid { Creation.sample.withDefinition .cyclicNeeds with runId := ⟨"2"⟩ } .none,
   .amid { Creation.sample.withDefinition .nothingOnMain with runId := ⟨"3"⟩ } .none,
   .amid { Creation.sample with runId := ⟨"4"⟩ } ⟨false, false, some .commitRefused⟩,
   .amid { Creation.sample with runId := ⟨"5"⟩ } .none]

theorem serve_standard_sample :
    (Task.samples.map (·.creation.runId)).Nodup ∧
      ((Chain.standard.serve Task.samples .empty).1.map (·.isComplete) =
        [true, false, false, false, false, true]) ∧
      (Chain.standard.serve Task.samples .empty).1.map Run.shown =
        (Chain.standard.serveAnew Task.samples .empty).1.map Run.shown ∧
      (Chain.standard.serve Task.samples .empty).2 =
        (Chain.standard.serveAnew Task.samples .empty).2 := by
  have hdistinct : (Task.samples.map (·.creation.runId)).Nodup := by decide +kernel
  refine ⟨hdistinct, by decide +kernel, ?_⟩
  exact serve_standard hdistinct .empty

end CiPipeline
