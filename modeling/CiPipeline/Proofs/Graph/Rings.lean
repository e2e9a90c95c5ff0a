/-
  CiPipeline.Proofs.Graph.Rings
  ─────────────────────────────
  **Rings and acyclic graphs.**

  The relation that a digraph stands for, between the nodes of its order only, and
  what a ring of it is.  A graph without rings is one in which no node reaches
  itself; a rank that falls along every edge shows that there is none.
-/
import CiPipeline.Graph.Cycles
import Mathlib.Data.List.Chain
import Mathlib.Logic.Relation

namespace CiPipeline.Graph

variable {α : Type}

/-! ## §1. Acyclic relations. -/

/-- Nothing reaches itself along a relation. -/
def AcyclicRel (r : α → α → Prop) : Prop := ∀ a, ¬Relation.TransGen r a a

namespace AcyclicRel

/-- Fewer edges keep a relation acyclic. -/
theorem mono {r r' : α → α → Prop} (h : AcyclicRel r) (hsub : ∀ a b, r' a b → r a b) :
    AcyclicRel r' := by
  intro a ha
  exact h a (Relation.TransGen.mono hsub a a ha)

/-- A rank that falls along every edge excludes every return. -/
theorem of_rank {r : α → α → Prop} (rank : α → Nat) (h : ∀ a b, r a b → rank b < rank a) :
    AcyclicRel r := by
  intro a ha
  -- along a path the rank only falls, so no path comes back to where it starts
  have hlt : ∀ b, Relation.TransGen r a b → rank b < rank a := by
    intro b hb
    induction hb with
    | single hab => exact h _ _ hab
    | tail _ hbc ih => exact Nat.lt_trans (h _ _ hbc) ih
  exact absurd (hlt a ha) (Nat.lt_irrefl _)

end AcyclicRel

/-! ## §2. The edges of a digraph. -/

namespace Digraph

/-- An edge between two nodes of the order. -/
def Edge (g : Digraph α) (a b : α) : Prop :=
  a ∈ g.order ∧ b ∈ g.order ∧ b ∈ g.edges a

/-- A ring: it runs along edges from a node back to that node, and meets no other
node twice. -/
def IsRing (g : Digraph α) (ring : List α) : Prop :=
  ∃ v between, ring = v :: between ++ [v] ∧ (v :: between).Nodup ∧ ring.IsChain g.Edge

/-- A ring has two ends, which are one node, and meets no node twice on its way. -/
theorem isRing_iff {g : Digraph α} {ring : List α} :
    g.IsRing ring ↔ 2 ≤ ring.length ∧ ring.head? = ring.getLast? ∧ ring.dropLast.Nodup ∧
      ring.IsChain g.Edge := by
  constructor
  · intro h
    obtain ⟨v, between, rfl, hnodup, hchain⟩ := h
    refine ⟨?_, ?_, ?_, hchain⟩
    · rw [List.length_append, List.length_cons, List.length_singleton]
      omega
    · rw [List.getLast?_concat]
      rfl
    · rw [List.dropLast_concat]
      exact hnodup
  · intro h
    obtain ⟨hlength, hends, hnodup, hchain⟩ := h
    cases ring with
    | nil => simp at hlength
    | cons v rest =>
        have hrest : rest ≠ [] := by
          rintro rfl
          simp at hlength
        -- the last node is the first one again
        obtain ⟨between, w, rfl⟩ : ∃ between w, rest = between ++ [w] :=
          ⟨_, _, (List.dropLast_concat_getLast hrest).symm⟩
        rw [← List.cons_append, List.getLast?_concat, List.cons_append, List.head?_cons,
          Option.some_inj] at hends
        subst hends
        rw [← List.cons_append, List.dropLast_concat] at hnodup
        exact ⟨v, between, rfl, hnodup, hchain⟩

/-- A ring leads from its node to that node. -/
theorem IsRing.returns {g : Digraph α} {ring : List α} (h : g.IsRing ring) :
    ∃ v, Relation.TransGen g.Edge v v := by
  obtain ⟨v, between, rfl, -, hchain⟩ := h
  refine ⟨v, ?_⟩
  -- every node of a chain behind its first one is reached from the first one
  have hreach : ∀ (l : List α) (a : α), (a :: l).IsChain g.Edge → ∀ b ∈ l,
      Relation.TransGen g.Edge a b := by
    intro l
    induction l with
    | nil => intro a _ b hb; cases hb
    | cons c l ih =>
        intro a hc b hb
        have hac : g.Edge a c := List.rel_of_isChain_cons_cons hc
        rcases List.mem_cons.mp hb with rfl | hb
        · exact .single hac
        · exact .head hac (ih c (List.isChain_of_isChain_cons hc) b hb)
  exact hreach (between ++ [v]) v hchain v (by simp)

end Digraph

/-- Some ring of a list is closed by the edge between two nodes, its last one. -/
def ClosedBy (rings : List (List α)) (a b : α) : Prop :=
  ∃ ring ∈ rings, ∃ front, ring = front ++ [a, b]

/-- An edge that closes a ring goes on doing so when more rings are found. -/
theorem ClosedBy.mono {rings rings' : List (List α)} {a b : α} (h : ClosedBy rings a b)
    (hsub : ∀ ring ∈ rings, ring ∈ rings') : ClosedBy rings' a b := by
  obtain ⟨ring, hring, front, hfront⟩ := h
  exact ⟨ring, hsub ring hring, front, hfront⟩

end CiPipeline.Graph
