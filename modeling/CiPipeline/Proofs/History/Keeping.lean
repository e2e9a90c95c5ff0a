/-
  CiPipeline.Proofs.History.Keeping
  ─────────────────────────────────
  **Which graph a creation gets to see when it comes again.**

  Creations visit one seed link, in any order and as often as they like, and between
  their visits their definitions may be replaced.  The link keeps one graph, for the
  creation that it has built it for.  As long as no other creation comes in between, a
  creation sees the graph of its first visit again; after that its graph is built anew.
  So each creation sees one graph only, exactly if the graphs that are built when it
  comes after another creation are all the same (`oneGraphEach_seen_iff`), and nothing
  makes them so.
-/
import CiPipeline.Proofs.Chain.Atomicity
import Mathlib.Data.List.Destutter

namespace CiPipeline

open Creation (Seeded)

/-! ## §1. Visits. -/

/-- A visit at a seed link: the creation and the stores as they are then. -/
structure Visit where
  creation : Creation
  stores : Stores

namespace Visit

variable [Regex.Engine]

/-- What a link does at a visit when it has kept `memo` before. -/
def work (v : Visit) (memo : Option GraphMemo) : Work := (v.creation.seed memo v.stores).1

/-- What it keeps from then on. -/
def keeps (v : Visit) (memo : Option GraphMemo) : Option GraphMemo :=
  (v.creation.seed memo v.stores).2

/-- The graph that the creation gets to see at the visit, with its identity: it is kept when the
link has done its work. -/
def graph? (v : Visit) (memo : Option GraphMemo) : Option GraphMemo :=
  match (v.work memo).result with
  | .ok _ => v.keeps memo
  | .error _ => none

/-- The creation uses a graph at the visit: the graph is its own, and is attached to it or has its
problems recorded. -/
def Uses (v : Visit) (memo : Option GraphMemo) (m : GraphMemo) : Prop :=
  m.runId = v.creation.runId ∧
    (v.work memo).creation = ((v.creation.prepare v.stores).creation.attach m.graph).1

/-- The graph that a new link would build at the visit. -/
def fresh? (v : Visit) : Option GraphMemo := v.graph? none

/-- The graphs that creations get to see, from visit to visit. -/
def seen : Option GraphMemo → List Visit → List GraphMemo
  | _, [] => []
  | memo, v :: vs => (v.graph? memo).toList ++ seen (v.keeps memo) vs

/-- The graphs that new links would build at the visits of those who come after another
creation. -/
def begun (vs : List Visit) : List GraphMemo :=
  (vs.filterMap fresh?).destutter fun b b' => b.runId ≠ b'.runId

end Visit

/-- What has been kept, if it is for the same creation. -/
def GraphMemo.orKept (b : GraphMemo) (memo : Option GraphMemo) : GraphMemo :=
  (memo.filter (·.runId = b.runId)).getD b

/-- Every creation has one graph only. -/
def OneGraphEach (ms : List GraphMemo) : Prop :=
  ∀ m ∈ ms, ∀ m' ∈ ms, m.runId = m'.runId → m.graph = m'.graph

namespace GraphMemo

variable {b m : GraphMemo}

theorem orKept_none (b : GraphMemo) : b.orKept none = b := rfl

/-- A graph that has been kept for the same creation takes the place of a new one. -/
theorem orKept_of_eq (h : m.runId = b.runId) : b.orKept (some m) = m := by
  unfold orKept
  rw [Option.filter_some, if_pos (decide_eq_true h)]
  rfl

/-- A graph that has been kept for another creation does not. -/
theorem orKept_of_ne (h : m.runId ≠ b.runId) : b.orKept (some m) = b := by
  unfold orKept
  rw [Option.filter_some, if_neg (by rw [decide_eq_true_eq]; exact h)]
  rfl

end GraphMemo

/-! ## §2. One visit. -/

/-- The graph of a creation is what has been kept for it, or else a new one. -/
theorem Creation.graphWith_eq_orKept [Regex.Engine] (c : Creation) (memo : Option GraphMemo)
    (d : Definition) :
    (⟨c.runId, (c.graphWith memo d).1⟩ : GraphMemo) =
      GraphMemo.orKept ⟨c.runId, (c.graphWith none d).1⟩ memo := by
  unfold graphWith GraphMemo.orKept
  cases hkept : memo.filter (·.runId = c.runId) with
  | none => rfl
  | some m =>
      obtain ⟨-, hrunId⟩ := Option.filter_eq_some_iff.mp hkept
      rw [← of_decide_eq_true hrunId]
      rfl

namespace Visit

variable [Regex.Engine]

/-- The graph that a new link would build for a creation with a definition. -/
def built (v : Visit) (d : Definition) : GraphMemo :=
  let c := (v.creation.prepare v.stores).creation
  ⟨c.runId, (c.graphWith none d).1⟩

/-- A creation with a definition that is prepared uses the graph that has been kept for it, or else
a new one, and the link keeps it. -/
theorem work_of_prepared {v : Visit} {d : Definition} (hdefinition : v.creation.definition = some d)
    (hprepared : (v.creation.prepare v.stores).result = .ok ()) (memo : Option GraphMemo) :
    ∃ m, m = (v.built d).orKept memo ∧ (v.work memo).result = .ok () ∧ v.keeps memo = some m ∧
      v.Uses memo m := by
  have hseeded : Seeded memo v.creation v.stores d _ _ _ := ⟨hdefinition, hprepared, rfl, rfl, rfl⟩
  obtain ⟨notes, hseed⟩ := hseeded.seed_eq
  refine ⟨_, Creation.graphWith_eq_orKept _ memo d, ?_⟩
  unfold Uses work keeps
  rw [hseed]
  exact ⟨rfl, rfl, v.creation.prepare_runId v.stores, rfl⟩

/-- **A visit gets to no graph, and the link keeps what it has kept; or its creation uses the graph
that has been kept for it, or else a new one, which is kept from then on.** -/
theorem visit_cases (v : Visit) :
    (∀ memo, v.graph? memo = none ∧ v.keeps memo = memo) ∨
    ∃ b : GraphMemo, ∀ memo,
      v.graph? memo = some (b.orKept memo) ∧ v.keeps memo = some (b.orKept memo) ∧
        v.Uses memo (b.orKept memo) := by
  unfold graph?
  cases hdefinition : v.creation.definition with
  | none =>
      refine .inl fun memo => ?_
      unfold work keeps
      rw [Creation.seed_of_undefined hdefinition]
      exact ⟨rfl, rfl⟩
  | some d =>
      cases hprepared : (v.creation.prepare v.stores).result with
      | error e =>
          refine .inl fun memo => ?_
          unfold work keeps
          rw [Creation.seed_of_refused hdefinition hprepared]
          dsimp only
          rw [hprepared]
          exact ⟨rfl, rfl⟩
      | ok u =>
          refine .inr ⟨v.built d, fun memo => ?_⟩
          obtain ⟨m, rfl, hresult, hkeeps, huses⟩ :=
            work_of_prepared hdefinition hprepared memo
          rw [hresult]
          exact ⟨hkeeps, hkeeps, huses⟩

/-- The graph that a creation gets to see is the one that it uses. -/
theorem uses_of_graph? {v : Visit} {memo : Option GraphMemo} {m : GraphMemo}
    (h : v.graph? memo = some m) : v.Uses memo m := by
  obtain hnone | ⟨b, hkept⟩ := v.visit_cases
  · rw [(hnone memo).1] at h
    cases h
  · obtain ⟨hgraph, -, huses⟩ := hkept memo
    rw [hgraph] at h
    cases h
    exact huses

/-! ## §3. One visit after the other. -/

/-- The graphs that are seen once something has been kept are those with which a new creation
comes in between. -/
theorem mem_seen_kept_iff (vs : List Visit) :
    ∀ m x : GraphMemo, x = m ∨ x ∈ seen (some m) vs ↔
      x ∈ (vs.filterMap fresh?).destutter' (fun b b' => b.runId ≠ b'.runId) m := by
  induction vs with
  | nil =>
      intro m x
      simp [seen]
  | cons v vs ih =>
      intro m x
      unfold seen
      obtain hnone | ⟨b, hkept⟩ := v.visit_cases
      · have hfresh : v.fresh? = none := (hnone none).1
        rw [(hnone _).1, (hnone _).2, List.filterMap_cons_none hfresh]
        exact ih m x
      · have hfresh : v.fresh? = some b := (hkept none).1
        rw [(hkept _).1, (hkept _).2.1, List.filterMap_cons_some hfresh]
        by_cases hsame : m.runId = b.runId
        · rw [GraphMemo.orKept_of_eq hsame, List.destutter'_cons_neg _ (not_not.mpr hsame),
            ← ih m x]
          simp
        · rw [GraphMemo.orKept_of_ne hsame, List.destutter'_cons_pos _ hsame, List.mem_cons,
            ← ih b x]
          simp

/-- **The graphs that a new link lets creations see are those that it builds when one comes
after another.** -/
theorem mem_seen_iff (vs : List Visit) (x : GraphMemo) : x ∈ seen none vs ↔ x ∈ begun vs := by
  induction vs with
  | nil => rfl
  | cons v vs ih =>
      unfold seen begun
      obtain hnone | ⟨b, hkept⟩ := v.visit_cases
      · have hfresh : v.fresh? = none := (hnone none).1
        rw [(hnone _).1, (hnone _).2, List.filterMap_cons_none hfresh]
        exact ih
      · have hfresh : v.fresh? = some b := (hkept none).1
        rw [(hkept _).1, (hkept _).2.1, List.filterMap_cons_some hfresh, List.destutter_cons',
          ← mem_seen_kept_iff vs b x]
        simp [GraphMemo.orKept_none]

end Visit

/-- **A creation uses the graph that it sees at a visit, and it sees one graph only exactly if the
link would build no two different ones for it when it comes after another creation.** -/
theorem oneGraphEach_seen_iff [Regex.Engine] (vs : List Visit) :
    (∀ v ∈ vs, ∀ memo m, v.graph? memo = some m → v.Uses memo m) ∧
      (OneGraphEach (Visit.seen none vs) ↔ OneGraphEach (Visit.begun vs)) := by
  constructor
  · intro v _ memo m hgraph
    exact Visit.uses_of_graph? hgraph
  · unfold OneGraphEach
    simp only [Visit.mem_seen_iff]

/-- A creation comes for the first time. -/
def Visit.first : Visit := ⟨.sample, .empty⟩

/-- It comes again with another definition, when the stores have become `s`. -/
def Visit.again (s : Stores) : Visit :=
  ⟨(first.work none).creation.withDefinition .nothingOnMain, s⟩

/-- It comes twice in a row. -/
def Visit.uninterrupted : List Visit := [first, again (first.work none).stores]

/-- Another creation comes in between. -/
def Visit.interleaved : List Visit :=
  let other : Visit := ⟨{ Creation.sample with runId := ⟨"other"⟩ }, (first.work none).stores⟩
  [first, other, again (other.work (first.keeps none)).stores]

/-- A creation that comes twice in a row uses its first graph again. -/
theorem oneGraphEach_seen_sample :
    (∃ m, Visit.first.graph? none = some m ∧ Visit.first.Uses none m) ∧
      (Visit.seen none Visit.uninterrupted).map (fun m => (m.runId, m.graph.size)) =
        [(⟨"run"⟩, 2), (⟨"run"⟩, 2)] ∧
      OneGraphEach (Visit.seen none Visit.uninterrupted) := by
  obtain ⟨huses, hiff⟩ := oneGraphEach_seen_iff Visit.uninterrupted
  have hsome : (Visit.first.graph? none).isSome = true := by decide +kernel
  obtain ⟨m, hm⟩ := Option.isSome_iff_exists.mp hsome
  have hlength : (Visit.begun Visit.uninterrupted).length = 1 := by decide +kernel
  obtain ⟨b, hb⟩ := List.length_eq_one_iff.mp hlength
  refine ⟨⟨m, hm, huses _ List.mem_cons_self none m hm⟩, by decide +kernel, hiff.mpr ?_⟩
  rw [hb]
  intro b' hb' b'' hb'' _
  rw [List.mem_singleton.mp hb', List.mem_singleton.mp hb'']

theorem OneGraphEach.size_eq {ms : List GraphMemo} (h : OneGraphEach ms) :
    ∀ p ∈ ms.map fun m => (m.runId, m.graph.size),
      ∀ q ∈ ms.map fun m => (m.runId, m.graph.size), p.1 = q.1 → p.2 = q.2 := by
  intro p hp q hq hsame
  obtain ⟨m, hm, rfl⟩ := List.mem_map.mp hp
  obtain ⟨m', hm', rfl⟩ := List.mem_map.mp hq
  exact congrArg (·.size) (h m hm m' hm' hsame)

/-- The creation that comes again after another one sees a graph without jobs, instead of the one
that has been built for it. -/
theorem oneGraphEach_not_kept :
    (Visit.seen none Visit.interleaved).map (fun m => (m.runId, m.graph.size)) =
        [(⟨"run"⟩, 2), (⟨"other"⟩, 2), (⟨"run"⟩, 0)] ∧
      ¬OneGraphEach (Visit.seen none Visit.interleaved) := by
  have hsizes : (Visit.seen none Visit.interleaved).map (fun m => (m.runId, m.graph.size)) =
      [(⟨"run"⟩, 2), (⟨"other"⟩, 2), (⟨"run"⟩, 0)] := by
    decide +kernel
  refine ⟨hsizes, fun hone => ?_⟩
  have hequal := hone.size_eq
  rw [hsizes] at hequal
  revert hequal
  decide

end CiPipeline
