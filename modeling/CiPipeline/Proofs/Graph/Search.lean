/-
  CiPipeline.Proofs.Graph.Search
  ──────────────────────────────
  **What a depth-first search knows at every moment.**

  The nodes that a visit has left are kept in the order in which they were left,
  the latest first.  An edge from such a node leads to one that was left before it,
  or it closes a ring that has been reported: this is the invariant that carries
  the search (`Search.Sound`).  A visit only adds to what is known and puts the path
  back (`Search.Grows`).  Main statements: `cycles_eq_nil_iff`, no ring is reported
  exactly if the graph is acyclic, and `cycles_feedback`, the edges that close the
  reported rings are all that makes rings.
-/
import CiPipeline.Proofs.Graph.Rings
import Mathlib.Data.List.Nodup
import Mathlib.Data.List.Perm.Subperm

namespace CiPipeline.Graph

variable {α : Type}

namespace Search

/-! ## §1. What the steps of a search do. -/

section Steps

variable [DecidableEq α]

@[simp] theorem enter_mark (s : Search α) (v w : α) :
    (s.enter v).mark w = if w = v then some .inProgress else s.mark w := rfl

@[simp] theorem enter_path (s : Search α) (v : α) : (s.enter v).path = s.path ++ [v] := rfl

@[simp] theorem enter_cycles (s : Search α) (v : α) : (s.enter v).cycles = s.cycles := rfl

@[simp] theorem enter_entered (s : Search α) (v : α) :
    (s.enter v).entered = s.entered ++ [v] := rfl

@[simp] theorem leave_mark (s : Search α) (v w : α) :
    (s.leave v).mark w = if w = v then some .done else s.mark w := rfl

@[simp] theorem leave_path (s : Search α) (v : α) : (s.leave v).path = s.path.dropLast := rfl

@[simp] theorem leave_cycles (s : Search α) (v : α) : (s.leave v).cycles = s.cycles := rfl

@[simp] theorem leave_entered (s : Search α) (v : α) : (s.leave v).entered = s.entered := rfl

@[simp] theorem close_mark (s : Search α) (v : α) : (s.close v).mark = s.mark := rfl

@[simp] theorem close_path (s : Search α) (v : α) : (s.close v).path = s.path := rfl

@[simp] theorem close_cycles (s : Search α) (v : α) :
    (s.close v).cycles = s.cycles ++ [ringAt s.path v] := rfl

@[simp] theorem close_entered (s : Search α) (v : α) : (s.close v).entered = s.entered := rfl

end Steps

/-! ## §2. The invariant. -/

/-- What holds of a search at every moment; `left` are the nodes whose visits have
ended, the latest first. -/
structure Sound (g : Digraph α) (s : Search α) (left : List α) : Prop where
  known : ∀ v, s.mark v ≠ none ↔ v ∈ g.order
  mem_path : ∀ v, v ∈ s.path ↔ s.mark v = some .inProgress
  mem_left : ∀ v, v ∈ left ↔ s.mark v = some .done
  path_nodup : s.path.Nodup
  left_nodup : left.Nodup
  path_chain : s.path.IsChain g.Edge
  settled : ∀ v before, v :: before <:+ left → ∀ w, g.Edge v w →
    w ∈ before ∨ ClosedBy s.cycles v w
  rings : ∀ ring ∈ s.cycles, g.IsRing ring
  mem_entered : ∀ v, v ∈ s.entered ↔ v ∈ s.path ∨ v ∈ left
  entered_nodup : s.entered.Nodup

/-- What a visit leaves behind: the path is back, and all else only grows. -/
structure Grows (s t : Search α) (left left' : List α) : Prop where
  path : t.path = s.path
  left : left <:+ left'
  cycles : s.cycles <+: t.cycles
  entered : s.entered <+: t.entered

theorem Grows.refl (s : Search α) (left : List α) : Grows s s left left :=
  ⟨rfl, List.suffix_refl _, List.prefix_refl _, List.prefix_refl _⟩

theorem Grows.trans {s t u : Search α} {l l' l'' : List α} (h : Grows s t l l')
    (h' : Grows t u l' l'') : Grows s u l l'' :=
  ⟨h'.path.trans h.path, h.left.trans h'.left, h.cycles.trans h'.cycles,
    h.entered.trans h'.entered⟩

/-- An edge to a node has been dealt with: the node has been left, or the edge
closes a ring. -/
def Handled (s : Search α) (left : List α) (v : α) : Prop :=
  v ∈ left ∨ ∃ u, s.path.getLast? = some u ∧ ClosedBy s.cycles u v

theorem Handled.grow {s t : Search α} {left left' : List α} {v : α} (h : Handled s left v)
    (hg : Grows s t left left') : Handled t left' v := by
  rcases h with h | ⟨u, hu, hclosed⟩
  · exact .inl (hg.left.subset h)
  · exact .inr ⟨u, by rw [hg.path]; exact hu, hclosed.mono fun r hr => hg.cycles.subset hr⟩

namespace Sound

variable {g : Digraph α} {s : Search α} {left : List α}

/-- Before a search nothing has been entered or left. -/
theorem start [DecidableEq α] (g : Digraph α) : Sound g (Search.start g) [] where
  known v := by simp [Search.start]
  mem_path v := by simp [Search.start]
  mem_left v := by simp [Search.start]
  path_nodup := List.nodup_nil
  left_nodup := List.nodup_nil
  path_chain := .nil
  settled v before h := by simp at h
  rings ring h := by simp [Search.start] at h
  mem_entered v := by simp [Search.start]
  entered_nodup := List.nodup_nil

/-- The nodes of the path belong to the order. -/
theorem path_subset (h : Sound g s left) : s.path ⊆ g.order := by
  intro v hv
  rw [← h.known, (h.mem_path v).mp hv]
  exact Option.some_ne_none _

/-- Visits are nested at most as deep as there are nodes. -/
theorem length_path_le (h : Sound g s left) : s.path.length ≤ g.order.length :=
  (List.subperm_of_subset h.path_nodup h.path_subset).length_le

variable [DecidableEq α]

/-- A node that is entered has not been entered before. -/
theorem enter (h : Sound g s left) {v : α} (hv : s.mark v = some .unvisited)
    (hedge : ∀ u, s.path.getLast? = some u → v ∈ g.edges u) : Sound g (s.enter v) left := by
  have horder : v ∈ g.order := by rw [← h.known, hv]; exact Option.some_ne_none _
  -- an unvisited node is neither on the path nor left
  have hpath : v ∉ s.path := by rw [h.mem_path, hv]; simp
  have hleft : v ∉ left := by rw [h.mem_left, hv]; simp
  refine ⟨?_, ?_, ?_, ?_, h.left_nodup, ?_, h.settled, h.rings, ?_, ?_⟩
  · intro w
    by_cases hw : w = v
    · subst hw; simp [horder]
    · simp only [enter_mark, hw, if_false]; exact h.known w
  · intro w
    by_cases hw : w = v
    · subst hw; simp
    · simp only [enter_path, enter_mark, List.mem_append, List.mem_singleton, hw, or_false,
        if_false]
      exact h.mem_path w
  · intro w
    by_cases hw : w = v
    · subst hw; simp [hleft]
    · simp only [enter_mark, hw, if_false]; exact h.mem_left w
  · rw [enter_path, ← List.concat_eq_append, List.nodup_concat]
    exact ⟨hpath, h.path_nodup⟩
  · -- the path goes on along the edge that is followed
    refine h.path_chain.append (List.isChain_singleton v) ?_
    intro u hu w hw
    rw [Option.mem_def, List.head?_cons, Option.some_inj] at hw
    subst hw
    exact ⟨h.path_subset (List.mem_of_getLast? hu), horder, hedge u hu⟩
  · intro w
    simp only [enter_entered, enter_path, List.mem_append, List.mem_singleton, h.mem_entered w]
    tauto
  · have hentered : v ∉ s.entered := by rw [h.mem_entered]; tauto
    rw [enter_entered, ← List.concat_eq_append, List.nodup_concat]
    exact ⟨hentered, h.entered_nodup⟩

/-- The visit of the latest node of the path ends when all its edges are dealt
with. -/
theorem leave (h : Sound g s left) {v : α} {outer : List α} (hpath : s.path = outer ++ [v])
    (hdone : ∀ w ∈ g.edges v, w ∈ g.order → Handled s left w) :
    Sound g (s.leave v) (v :: left) := by
  have hnodup := h.path_nodup
  rw [hpath, List.nodup_append] at hnodup
  -- the node stands on the path once, so it is gone from there
  have houter : v ∉ outer := fun hv => hnodup.2.2 v hv v (by simp) rfl
  have hin : s.mark v = some .inProgress := by rw [← h.mem_path, hpath]; simp
  have hleft : v ∉ left := by rw [h.mem_left, hin]; simp
  have hdrop : (s.leave v).path = outer := by rw [leave_path, hpath, List.dropLast_concat]
  have hlast : s.path.getLast? = some v := by rw [hpath, List.getLast?_concat]
  refine ⟨?_, ?_, ?_, ?_, List.nodup_cons.mpr ⟨hleft, h.left_nodup⟩, ?_, ?_, h.rings, ?_,
    h.entered_nodup⟩
  · intro w
    by_cases hw : w = v
    · subst hw; simp [← h.known, hin]
    · simp only [leave_mark, hw, if_false]; exact h.known w
  · intro w
    rw [hdrop]
    by_cases hw : w = v
    · subst hw; simp [houter]
    · simp only [leave_mark, hw, if_false]
      rw [← h.mem_path, hpath]
      simp [hw]
  · intro w
    by_cases hw : w = v
    · subst hw; simp
    · simp only [leave_mark, hw, if_false, List.mem_cons, false_or]; exact h.mem_left w
  · rw [hdrop]; exact hnodup.1
  · rw [hdrop]
    have hchain := h.path_chain
    rw [hpath] at hchain
    exact hchain.left_of_append
  · intro u before hsuffix w hedge
    rcases List.suffix_cons_iff.mp hsuffix with heq | hsuffix
    · -- the node that is left now: all its edges have been dealt with
      obtain ⟨rfl, rfl⟩ := List.cons.inj heq
      rcases hdone w hedge.2.2 hedge.2.1 with hw | ⟨u', hu', hclosed⟩
      · exact .inl hw
      · rw [hlast, Option.some_inj] at hu'
        subst hu'
        exact .inr hclosed
    · exact h.settled u before hsuffix w hedge
  · intro w
    rw [leave_entered, h.mem_entered, hdrop, hpath]
    simp only [List.mem_append, List.mem_cons]
    tauto

/-- From a node of the path on, the path is that node and what follows it. -/
theorem ringAt_split {before after : List α} {v : α} (hv : v ∉ before) :
    ringAt (before ++ v :: after) v = v :: after ++ [v] := by
  have hfound : (before ++ v :: after).idxOf? v = some before.length := by
    refine List.idxOf?_eq_some_iff.mpr ⟨by simp, by simp, ?_⟩
    intro j hj heq
    rw [List.getElem_append_left hj] at heq
    exact hv (heq ▸ List.getElem_mem hj)
  unfold ringAt
  rw [hfound, Option.getD_some, List.drop_left]

/-- An edge to a node of the path closes a ring. -/
theorem close (h : Sound g s left) {v : α} (hv : v ∈ s.path)
    (hedge : ∀ u, s.path.getLast? = some u → v ∈ g.edges u) :
    Sound g (s.close v) left ∧ Handled (s.close v) left v := by
  obtain ⟨before, after, hsplit, hbefore⟩ := List.eq_append_cons_of_mem hv
  have hring : ringAt s.path v = v :: after ++ [v] := by rw [hsplit, ringAt_split hbefore]
  -- the latest node of the path is the one from which the edge goes out
  obtain ⟨front, u, hfront⟩ : ∃ front u, v :: after = front ++ [u] :=
    ⟨_, _, (List.dropLast_concat_getLast (List.cons_ne_nil v after)).symm⟩
  have hlast : s.path.getLast? = some u := by
    rw [hsplit, hfront, ← List.append_assoc, List.getLast?_concat]
  have hclosing : g.Edge u v :=
    ⟨h.path_subset (List.mem_of_getLast? hlast), h.path_subset hv, hedge u hlast⟩
  -- the ring is a piece of the path, and the edge that goes back
  have hpart : (v :: after).IsChain g.Edge := by
    have hchain := h.path_chain
    rw [hsplit] at hchain
    exact hchain.right_of_append
  have hnodup : (v :: after).Nodup := by
    have hall := h.path_nodup
    rw [hsplit, List.nodup_append] at hall
    exact hall.2.1
  have hnew : g.IsRing (ringAt s.path v) := by
    refine ⟨v, after, hring, hnodup, ?_⟩
    rw [hring]
    refine hpart.append (List.isChain_singleton v) ?_
    intro x hx y hy
    rw [hfront, List.getLast?_concat, Option.mem_def, Option.some_inj] at hx
    rw [Option.mem_def, List.head?_cons, Option.some_inj] at hy
    subst hx hy
    exact hclosing
  refine ⟨⟨h.known, h.mem_path, h.mem_left, h.path_nodup, h.left_nodup, h.path_chain, ?_, ?_,
    h.mem_entered, h.entered_nodup⟩, ?_⟩
  · -- what has been settled stays settled, since no ring is taken back
    intro w before' hsuffix x hx
    rcases h.settled w before' hsuffix x hx with hbef | hclosed
    · exact .inl hbef
    · exact .inr (hclosed.mono fun r hr => by simp [hr])
  · intro ring hmem
    rw [close_cycles, List.mem_append, List.mem_singleton] at hmem
    rcases hmem with hmem | rfl
    · exact h.rings ring hmem
    · exact hnew
  · refine .inr ⟨u, hlast, ringAt s.path v, by simp, front, ?_⟩
    rw [hring, hfront, List.append_assoc]
    rfl

end Sound

/-! ## §3. A visit, and visits one after the other. -/

variable [DecidableEq α]

/-- What is claimed of following an edge with so many nested visits left. -/
def FollowsSoundly (g : Digraph α) (depth : Nat) : Prop :=
  ∀ (s : Search α) (left : List α) (v : α), Sound g s left →
    g.order.length < depth + s.path.length →
    (∀ u, s.path.getLast? = some u → v ∈ g.edges u) →
    ∃ left', Sound g (follow g depth s v) left' ∧ Grows s (follow g depth s v) left left' ∧
      (v ∈ g.order → Handled (follow g depth s v) left' v)

/-- Edges that are followed one after the other are all dealt with. -/
theorem foldl_follow {g : Digraph α} {depth : Nat} (hfollow : FollowsSoundly g depth) :
    ∀ (targets : List α) (s : Search α) (left : List α), Sound g s left →
      g.order.length < depth + s.path.length →
      (∀ v ∈ targets, ∀ u, s.path.getLast? = some u → v ∈ g.edges u) →
      ∃ left', Sound g (targets.foldl (follow g depth) s) left' ∧
        Grows s (targets.foldl (follow g depth) s) left left' ∧
        ∀ v ∈ targets, v ∈ g.order → Handled (targets.foldl (follow g depth) s) left' v := by
  intro targets
  induction targets with
  | nil =>
      intro s left hs _ _
      exact ⟨left, hs, Grows.refl s left, by simp⟩
  | cons v targets ih =>
      intro s left hs hdepth hedge
      obtain ⟨left₁, hs₁, hgrow₁, hv⟩ := hfollow s left v hs hdepth (hedge v (by simp))
      -- the path is back, so the next edge goes out from the same node
      obtain ⟨left₂, hs₂, hgrow₂, hrest⟩ := ih (follow g depth s v) left₁ hs₁
        (by rw [hgrow₁.path]; exact hdepth)
        (by rw [hgrow₁.path]; exact fun w hw => hedge w (by simp [hw]))
      refine ⟨left₂, hs₂, hgrow₁.trans hgrow₂, ?_⟩
      intro w hw horder
      rcases List.mem_cons.mp hw with rfl | hw
      · exact (hv horder).grow hgrow₂
      · exact hrest w hw horder

/-- **Following an edge keeps what is known of the search, and deals with the
edge.** -/
theorem followsSoundly (g : Digraph α) : ∀ depth, FollowsSoundly g depth := by
  intro depth
  induction depth with
  | zero =>
      intro s left v hs hdepth _
      -- a path of distinct nodes cannot be longer than the order
      have := hs.length_path_le
      omega
  | succ depth ih =>
      intro s left v hs hdepth hedge
      unfold follow
      cases hmark : s.mark v with
      | none =>
          -- an edge that leads out of the order
          refine ⟨left, hs, Grows.refl s left, fun horder => ?_⟩
          exact absurd hmark ((hs.known v).mpr horder)
      | some m =>
          cases m with
          | done => exact ⟨left, hs, Grows.refl s left, fun _ => .inl ((hs.mem_left v).mpr hmark)⟩
          | inProgress =>
              obtain ⟨hs', hv⟩ := hs.close ((hs.mem_path v).mpr hmark) hedge
              exact ⟨left, hs', ⟨rfl, List.suffix_refl _, by simp, List.prefix_refl _⟩, fun _ => hv⟩
          | unvisited =>
              -- the targets of `v` are followed with `v` at the end of the path
              obtain ⟨left', hs', hgrow, hdone⟩ := foldl_follow ih (g.edges v) (s.enter v) left
                (hs.enter hmark hedge) (by rw [enter_path, List.length_append]; simp; omega)
                (by
                  intro w hw u hu
                  rw [enter_path, List.getLast?_concat, Option.some_inj] at hu
                  exact hu ▸ hw)
              -- so `v` is the node that is left
              have hpath : ((g.edges v).foldl (follow g depth) (s.enter v)).path = s.path ++ [v] :=
                hgrow.path
              refine ⟨v :: left', hs'.leave hpath hdone, ⟨?_, ?_, ?_, ?_⟩, ?_⟩
              · rw [leave_path, hpath, List.dropLast_concat]
              · exact hgrow.left.trans (List.suffix_cons v left')
              · exact hgrow.cycles
              · exact (List.prefix_append s.entered [v]).trans hgrow.entered
              · exact fun _ => .inl List.mem_cons_self

/-- **After a search every node of the order has been left.** -/
theorem sound_run (g : Digraph α) :
    ∃ left, Sound g (run g) left ∧ (run g).path = [] ∧ ∀ v, v ∈ left ↔ v ∈ g.order := by
  have hstart : (Search.start g).path = [] := rfl
  obtain ⟨left, hs, hgrow, hdone⟩ := foldl_follow (followsSoundly g (g.order.length + 1)) g.order
    (Search.start g) [] (Sound.start g) (by rw [hstart]; simp) (by rw [hstart]; simp)
  have hpath : (run g).path = [] := hgrow.path
  refine ⟨left, hs, hpath, fun v => ⟨fun hv => ?_, fun hv => ?_⟩⟩
  · rw [← hs.known, (hs.mem_left v).mp hv]
    exact Option.some_ne_none _
  · -- with an empty path there is no edge that might have closed a ring instead
    rcases hdone v hv hv with hleft | ⟨u, hu, -⟩
    · exact hleft
    · have hu' : (run g).path.getLast? = some u := hu
      rw [hpath] at hu'
      simp at hu'

end Search

/-! ## §4. What the rings say about the graph. -/

namespace Digraph

variable [DecidableEq α] (g : Digraph α)

/-- Every ring that is found is one of the graph. -/
theorem isRing_of_mem_cycles {ring : List α} (h : ring ∈ g.cycles) : g.IsRing ring := by
  obtain ⟨left, hs, -, -⟩ := Search.sound_run g
  exact hs.rings ring h

/-- Without the edges that close the rings, no node reaches itself: the edges lead
from each node to nodes that the search has left before it. -/
theorem acyclic_without_closing :
    AcyclicRel fun a b => g.Edge a b ∧ ¬ClosedBy g.cycles a b := by
  obtain ⟨left, hs, -, hleft⟩ := Search.sound_run g
  -- the rank of a node counts the nodes that have been left up to it
  refine AcyclicRel.of_rank (fun v => left.length - left.idxOf v) ?_
  intro a b hab
  obtain ⟨later, before, hsplit, hlater⟩ :=
    List.eq_append_cons_of_mem ((hleft a).mpr hab.1.1)
  have hbefore : b ∈ before := by
    rcases hs.settled a before ⟨later, hsplit.symm⟩ b hab.1 with hb | hclosed
    · exact hb
    · exact absurd hclosed hab.2
  have hnodup := hs.left_nodup
  rw [hsplit, List.nodup_append] at hnodup
  -- each node is left once: where one stands, it stands nowhere else
  have hblater : b ∉ later := fun hb => hnodup.2.2 b hb b (by simp [hbefore]) rfl
  have hba : a ≠ b := fun heq => (List.nodup_cons.mp hnodup.2.1).1 (heq ▸ hbefore)
  have hlen : before.idxOf b < before.length := List.idxOf_lt_length_of_mem hbefore
  rw [hsplit]
  simp only [List.idxOf_append, hlater, hblater, if_false, List.idxOf_cons_self,
    List.idxOf_cons_ne _ hba, List.length_append, List.length_cons]
  omega

/-- **No ring is found exactly if no node reaches itself.** -/
theorem cycles_eq_nil_iff : g.cycles = [] ↔ AcyclicRel g.Edge := by
  constructor
  · intro hnil
    refine (acyclic_without_closing g).mono fun a b hab => ⟨hab, ?_⟩
    rw [hnil]
    intro h
    obtain ⟨ring, hring, -⟩ := h
    cases hring
  · intro hacyclic
    refine List.eq_nil_iff_forall_not_mem.mpr fun ring hring => ?_
    obtain ⟨v, hv⟩ := (isRing_of_mem_cycles g hring).returns
    exact hacyclic v hv

/-- **What a search reports are rings of the graph, and they are enough of them: without the
edge that closes each of them the graph is acyclic.**  So there is a ring exactly if one is
reported. -/
theorem cycles_feedback :
    (∀ ring ∈ g.cycles, 2 ≤ ring.length ∧ ring.head? = ring.getLast? ∧ ring.dropLast.Nodup ∧
      ring.IsChain g.Edge) ∧
    (AcyclicRel fun a b => g.Edge a b ∧ ¬ClosedBy g.cycles a b) ∧
    (g.cycles = [] ↔ AcyclicRel g.Edge) :=
  ⟨fun _ hring => isRing_iff.mp (isRing_of_mem_cycles g hring), acyclic_without_closing g,
    cycles_eq_nil_iff g⟩

/-- Two rings through one node, an edge that stands twice and one that leads out of the
order. -/
example : (Digraph.mk [1, 2, 3] fun v => if v = 1 then [2, 3, 2, 7] else [1]).cycles =
    [[1, 2, 1], [1, 3, 1]] := by decide

end Digraph

end CiPipeline.Graph
