/-
  CiPipeline.Proofs.Graph.Moments
  ───────────────────────────────
  **What holds at every moment of a depth-first search.**

  A search is at a moment whenever it turns to a target or has no target left
  (`Search.Moment`); between two moments it takes a single step, or a whole visit whose
  moments are told as well.  At every moment the path holds the nodes whose visits are under
  way, so a node that closes a ring is found on it.  A visit puts the path back, and when it
  ends, all that could be reached through unvisited nodes is done (`Search.Visited`).  Main
  statement: `path_kept`.
-/
import CiPipeline.Proofs.Graph.Search

namespace CiPipeline.Graph

namespace Search

variable {α : Type}

/-! ## §1. Only what has been entered is on the path or in a ring. -/

/-- Nothing is under way, on the path or in a ring unless it has been entered. -/
structure Recorded (s : Search α) : Prop where
  inProgress : ∀ v, s.mark v = some .inProgress → v ∈ s.entered
  path : s.path ⊆ s.entered
  rings : ∀ ring ∈ s.cycles, ring ⊆ s.entered

/-- An edge from a node that is done leads to another such node, or to one under way. -/
theorem Sound.mark_of_edge {g : Digraph α} {s : Search α} {left : List α} {a b : α}
    (h : Sound g s left) (hrecorded : Recorded s) (ha : s.mark a = some .done)
    (hedge : g.Edge a b) : s.mark b = some .done ∨ s.mark b = some .inProgress := by
  obtain ⟨later, before, hsplit⟩ := List.append_of_mem ((h.mem_left a).mpr ha)
  rcases h.settled a before ⟨later, hsplit.symm⟩ b hedge with hb | ⟨ring, hring, front, hfront⟩
  · refine .inl ((h.mem_left b).mp ?_)
    rw [hsplit]
    simp [hb]
  · -- the edge closes a ring, so its target has been entered
    have hb : b ∈ s.entered := hrecorded.rings ring hring (by simp [hfront])
    rcases (h.mem_entered b).mp hb with hpath | hleft
    · exact .inr ((h.mem_path b).mp hpath)
    · exact .inl ((h.mem_left b).mp hleft)

variable [DecidableEq α]

namespace Recorded

variable {s : Search α} {v : α}

theorem start (g : Digraph α) : Recorded (Search.start g) where
  inProgress v hv := by simp [Search.start] at hv
  path := List.nil_subset _
  rings ring hring := by simp [Search.start] at hring

theorem enter (h : Recorded s) (v : α) : Recorded (s.enter v) where
  inProgress w hw := by
    rw [enter_mark] at hw
    rw [enter_entered, List.mem_append, List.mem_singleton]
    by_cases hwv : w = v
    · exact .inr hwv
    · rw [if_neg hwv] at hw
      exact .inl (h.inProgress w hw)
  path := by
    rw [enter_path, enter_entered]
    exact List.append_subset.mpr
      ⟨List.subset_append_of_subset_left _ h.path, List.subset_append_right _ _⟩
  rings ring hring := List.subset_append_of_subset_left _ (h.rings ring hring)

theorem close (h : Recorded s) (hv : s.mark v = some .inProgress) : Recorded (s.close v) where
  inProgress := h.inProgress
  path := h.path
  rings ring hring := by
    rw [close_cycles, List.mem_append, List.mem_singleton] at hring
    rcases hring with hring | rfl
    · exact h.rings ring hring
    · -- the new ring is a piece of the path and the node that closes it
      refine List.append_subset.mpr ⟨fun w hw => h.path (List.mem_of_mem_drop hw), ?_⟩
      exact List.cons_subset.mpr ⟨h.inProgress v hv, List.nil_subset _⟩

theorem leave (h : Recorded s) (v : α) : Recorded (s.leave v) where
  inProgress w hw := by
    rw [leave_mark] at hw
    by_cases hwv : w = v
    · rw [if_pos hwv] at hw
      cases hw
    · rw [if_neg hwv] at hw
      exact h.inProgress w hw
  path := fun w hw => h.path (List.dropLast_subset _ hw)
  rings := h.rings

end Recorded

/-! ## §2. What follows from one target. -/

section Follow

variable {g : Digraph α} {depth : Nat} {s : Search α} {v : α}

theorem follow_of_unvisited (hv : s.mark v = some .unvisited) :
    follow g (depth + 1) s v = ((g.edges v).foldl (follow g depth) (s.enter v)).leave v := by
  rw [follow, hv]

theorem follow_of_inProgress (hv : s.mark v = some .inProgress) :
    follow g (depth + 1) s v = s.close v := by
  rw [follow, hv]

/-- A node that is done, or is none of the order, says nothing. -/
theorem follow_of_settled (hunvisited : s.mark v ≠ some .unvisited)
    (hinProgress : s.mark v ≠ some .inProgress) : follow g (depth + 1) s v = s := by
  rw [follow]
  cases hmark : s.mark v with
  | none => rfl
  | some m =>
      cases m with
      | unvisited => exact absurd hmark hunvisited
      | inProgress => exact absurd hmark hinProgress
      | done => rfl

/-- What entering, closing and leaving keep is kept by all that follows from a target. -/
theorem follow_keeps {P : Search α → Prop} (henter : ∀ s v, P s → P (s.enter v))
    (hclose : ∀ s v, s.mark v = some .inProgress → P s → P (s.close v))
    (hleave : ∀ s v, P s → P (s.leave v)) (g : Digraph α) :
    ∀ depth s v, P s → P (follow g depth s v) := by
  intro depth
  induction depth with
  | zero => exact fun s v hs => hs
  | succ depth ih =>
      intro s v hs
      by_cases hunvisited : s.mark v = some .unvisited
      · rw [follow_of_unvisited hunvisited]
        refine hleave _ v ?_
        exact List.foldlRecOn _ _ (henter s v hs) fun t ht w _ => ih t w ht
      · by_cases hinProgress : s.mark v = some .inProgress
        · rw [follow_of_inProgress hinProgress]
          exact hclose s v hinProgress hs
        · rw [follow_of_settled hunvisited hinProgress]
          exact hs

end Follow

/-! ## §3. The moments of a search. -/

/-- A moment of a search: as many visits may still be nested, this is the state, and these
targets are next, for the latest visit or, if none is under way, for the search itself. -/
inductive Moment (g : Digraph α) : Nat → Search α → List α → Prop where
  /-- At first, the nodes of the order are next. -/
  | first : Moment g (g.order.length + 1) (start g) g.order
  /-- An unvisited node is entered, and the targets of its edges are next. -/
  | entered {depth : Nat} {s : Search α} {v : α} {targets : List α}
      (h : Moment g (depth + 1) s (v :: targets)) (hv : s.mark v = some .unvisited) :
      Moment g depth (s.enter v) (g.edges v)
  /-- A target has been followed, with all that comes of it. -/
  | followed {depth : Nat} {s : Search α} {v : α} {targets : List α}
      (h : Moment g depth s (v :: targets)) : Moment g depth (follow g depth s v) targets

namespace Moment

variable {g : Digraph α} {depth : Nat} {s : Search α} {v : α} {targets : List α}

/-- Every moment is sound, has visits left that may be nested, and its targets are those of
the latest visit. -/
theorem sound (h : Moment g depth s targets) :
    ∃ left, Sound g s left ∧ g.order.length < depth + s.path.length ∧
      ∀ v ∈ targets, ∀ u, s.path.getLast? = some u → v ∈ g.edges u := by
  induction h with
  | first =>
      refine ⟨[], Sound.start g, ?_, ?_⟩
      · show g.order.length < g.order.length + 1 + 0
        omega
      · intro v _ u hu
        cases hu
  | entered _ hv ih =>
      obtain ⟨left, hs, hdepth, hedge⟩ := ih
      refine ⟨left, hs.enter hv (hedge _ List.mem_cons_self), ?_, ?_⟩
      · rw [enter_path, List.length_append, List.length_singleton]
        omega
      · intro w hw u hu
        rw [enter_path, List.getLast?_concat, Option.some_inj] at hu
        exact hu ▸ hw
  | followed _ ih =>
      obtain ⟨left, hs, hdepth, hedge⟩ := ih
      obtain ⟨left', hs', hgrow, -⟩ :=
        followsSoundly g _ _ left _ hs hdepth (hedge _ List.mem_cons_self)
      refine ⟨left', hs', ?_, ?_⟩
      · rw [hgrow.path]
        exact hdepth
      · rw [hgrow.path]
        exact fun w hw => hedge w (List.mem_cons_of_mem _ hw)

/-- There is always a visit left that may be nested: the limit on them is never felt. -/
theorem exists_depth (h : Moment g depth s targets) : ∃ below, depth = below + 1 := by
  obtain ⟨left, hs, hdepth, -⟩ := h.sound
  have hpath := hs.length_path_le
  exact ⟨depth - 1, by omega⟩

/-- A target that has been followed leaves the path as it was. -/
theorem path_followed (h : Moment g depth s (v :: targets)) :
    (follow g depth s v).path = s.path := by
  obtain ⟨left, hs, hdepth, hedge⟩ := h.sound
  obtain ⟨left', -, hgrow, -⟩ :=
    followsSoundly g depth s left v hs hdepth (hedge v List.mem_cons_self)
  exact hgrow.path

end Moment

theorem Moment.recorded {g : Digraph α} {depth : Nat} {s : Search α} {targets : List α}
    (h : Moment g depth s targets) : Recorded s := by
  induction h with
  | first => exact Recorded.start g
  | entered _ _ ih => exact ih.enter _
  | followed _ ih =>
      exact follow_keeps (fun _ v hs => hs.enter v) (fun _ _ hv hs => hs.close hv)
        (fun _ v hs => hs.leave v) g _ _ _ ih

/-! ## §4. A visit from its beginning to its end. -/

/-- What the visit of a node leaves behind, told by the states in which it began and ended. -/
structure Visited (g : Digraph α) (s : Search α) (v : α) (t : Search α) : Prop where
  /-- The path is what it was. -/
  path : t.path = s.path
  /-- The node is done, and so is all that could be reached from it through unvisited
  nodes. -/
  reached : ∀ w, Relation.ReflTransGen (fun a b => g.Edge a b ∧ s.mark b = some .unvisited) v w →
    t.mark w = some .done
  /-- The other visits are still under way. -/
  underWay : ∀ w, s.mark w = some .inProgress → t.mark w = some .inProgress

theorem Moment.visited {g : Digraph α} {depth : Nat} {s : Search α} {v : α} {targets : List α}
    (h : Moment g depth s (v :: targets)) (hv : s.mark v = some .unvisited) :
    Visited g s v (follow g depth s v) := by
  obtain ⟨left, hs, -, -⟩ := h.sound
  obtain ⟨left', ht, -, -⟩ := h.followed.sound
  have hpath := h.path_followed
  -- the path is back, so the nodes under way are those from before
  have hunder : ∀ w, (follow g depth s v).mark w = some .inProgress ↔
      s.mark w = some .inProgress := by
    intro w
    rw [← ht.mem_path, hpath, hs.mem_path]
  have hdone : (follow g depth s v).mark v = some .done := by
    obtain ⟨below, rfl⟩ := h.exists_depth
    rw [follow_of_unvisited hv, leave_mark, if_pos rfl]
  refine ⟨hpath, ?_, fun w hw => (hunder w).mpr hw⟩
  intro w hw
  induction hw with
  | refl => exact hdone
  | tail _ hstep ih =>
      rcases ht.mark_of_edge h.followed.recorded ih hstep.1 with hw | hw
      · exact hw
      · -- what is under way now was so when the visit began, and not unvisited
        rw [hunder, hstep.2] at hw
        cases hw

/-- **At every moment of a search the path holds the nodes under way, each of them once, and
runs along edges.**  So a node under way to which an edge leads is found on the path, and the
ring is the part of the path from there on.  A visit leaves the path and the other visits as
they were, and all that it could reach through unvisited nodes done. -/
theorem path_kept {g : Digraph α} {depth : Nat} {s : Search α} {targets : List α}
    (h : Moment g depth s targets) :
    ((∀ v, v ∈ s.path ↔ s.mark v = some .inProgress) ∧ s.path.Nodup ∧
      s.path.IsChain g.Edge) ∧
    ∀ v rest, targets = v :: rest →
      (s.mark v = some .inProgress → ∃ i, s.path.idxOf? v = some i ∧
        (follow g depth s v).cycles = s.cycles ++ [s.path.drop i ++ [v]]) ∧
      (s.mark v = some .unvisited → Visited g s v (follow g depth s v)) := by
  obtain ⟨left, hs, -, -⟩ := h.sound
  refine ⟨⟨hs.mem_path, hs.path_nodup, hs.path_chain⟩, ?_⟩
  rintro v rest rfl
  refine ⟨fun hv => ?_, h.visited⟩
  have hfound : (s.path.idxOf? v).isSome := List.isSome_idxOf?.mpr ((hs.mem_path v).mpr hv)
  obtain ⟨i, hi⟩ := Option.isSome_iff_exists.mp hfound
  obtain ⟨below, rfl⟩ := h.exists_depth
  refine ⟨i, hi, ?_⟩
  rw [follow_of_inProgress hv, close_cycles, ringAt, hi, Option.getD_some]

/-- Two nodes on a ring, from the second of which an edge leads on to a third node. -/
def sampleGraph : Digraph Nat :=
  ⟨[1, 2, 3], fun v => if v = 1 then [2] else if v = 2 then [1, 3] else []⟩

/-- From the second node of the sample the first one is found at the start of the path, and
then the third node is visited. -/
theorem path_kept_sample :
    let s := ((start sampleGraph).enter 1).enter 2
    let t := follow sampleGraph 2 s 1
    Moment sampleGraph 2 s [1, 3] ∧ s.path.idxOf? 1 = some 0 ∧ t.cycles = [[1, 2, 1]] ∧
      Visited sampleGraph t 3 (follow sampleGraph 2 t 3) := by
  intro s t
  have hs : Moment sampleGraph 2 s [1, 3] :=
    .entered (v := 2) (.entered (v := 1) .first (by decide)) (by decide)
  have ht : Moment sampleGraph 2 t [3] := hs.followed
  obtain ⟨i, hi, hring⟩ := ((path_kept hs).2 1 [3] rfl).1 (by decide)
  refine ⟨hs, by decide, ?_, ((path_kept ht).2 3 [] rfl).2 (by decide)⟩
  have hfirst : s.path.idxOf? 1 = some 0 := by decide
  rw [hfirst, Option.some_inj] at hi
  rw [hring, ← hi]
  decide

end Search

end CiPipeline.Graph
