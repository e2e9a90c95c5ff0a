/-
  CiPipeline.Proofs.Graph.Termination
  ───────────────────────────────────
  **A depth-first search ends, and visits every node once.**

  `Search.Ends` tells the search without any limit on how deep visits are nested: following
  targets ends if there is a finite account of it, which names the nodes that are visited on
  the way.  Every moment of a search has such an account, with visits nested at most as deep
  as there are distinct nodes not yet on the path: a node is marked before its edges are
  followed, so each visit that is nested makes the path longer by a new node.  Main statement:
  `run_ends`.
-/
import CiPipeline.Proofs.Graph.Moments
import Mathlib.Data.List.Dedup

namespace CiPipeline.Graph.Search

variable {α : Type} [DecidableEq α]

/-! ## §1. Searches that end. -/

/-- Following targets one after the other from a state ends in a state.  On the way these
nodes are visited, in this order, with at most so many visits nested in one another. -/
inductive Ends (g : Digraph α) : Nat → Search α → List α → List α → Search α → Prop where
  /-- There is no target left. -/
  | nil {depth : Nat} {s : Search α} : Ends g depth s [] [] s
  /-- An unvisited target is visited: the edges from it are followed before what is next. -/
  | visit {depth : Nat} {s t u : Search α} {v : α} {targets inner later : List α}
      (hv : s.mark v = some .unvisited)
      (hinner : Ends g depth (s.enter v) (g.edges v) inner t)
      (hlater : Ends g (depth + 1) (t.leave v) targets later u) :
      Ends g (depth + 1) s (v :: targets) (v :: inner ++ later) u
  /-- A target under way closes a ring. -/
  | close {depth : Nat} {s u : Search α} {v : α} {targets later : List α}
      (hv : s.mark v = some .inProgress) (hlater : Ends g depth (s.close v) targets later u) :
      Ends g depth s (v :: targets) later u
  /-- Any other target is passed over. -/
  | pass {depth : Nat} {s u : Search α} {v : α} {targets later : List α}
      (hunvisited : s.mark v ≠ some .unvisited) (hinProgress : s.mark v ≠ some .inProgress)
      (hlater : Ends g depth s targets later u) : Ends g depth s (v :: targets) later u

namespace Ends

variable {g : Digraph α} {depth : Nat} {s t : Search α} {targets visits : List α}

/-- The visits are recorded as they begin. -/
theorem entered (h : Ends g depth s targets visits t) : t.entered = s.entered ++ visits := by
  induction h with
  | nil => simp
  | visit _ _ _ ihinner ihlater =>
      rw [ihlater, leave_entered, ihinner, enter_entered]
      simp
  | close _ _ ih => rw [ih, close_entered]
  | pass _ _ _ ih => exact ih

/-- There is one way in which a search ends. -/
theorem unique (h : Ends g depth s targets visits t) :
    ∀ {depth' : Nat} {visits' : List α} {t' : Search α},
      Ends g depth' s targets visits' t' → visits' = visits ∧ t' = t := by
  induction h with
  | nil =>
      intro depth' visits' t' h'
      cases h' with
      | nil => exact ⟨rfl, rfl⟩
  | visit hv _ _ ihinner ihlater =>
      intro depth' visits' t' h'
      cases h' with
      | visit _ hinner' hlater' =>
          obtain ⟨rfl, rfl⟩ := ihinner hinner'
          obtain ⟨rfl, rfl⟩ := ihlater hlater'
          exact ⟨rfl, rfl⟩
      | close hv' _ =>
          rw [hv] at hv'
          cases hv'
      | pass hv' _ _ => exact absurd hv hv'
  | close hv _ ih =>
      intro depth' visits' t' h'
      cases h' with
      | visit hv' _ _ =>
          rw [hv] at hv'
          cases hv'
      | close _ hlater' => exact ih hlater'
      | pass _ hv' _ => exact absurd hv hv'
  | pass hunvisited hinProgress _ ih =>
      intro depth' visits' t' h'
      cases h' with
      | visit hv' _ _ => exact absurd hv' hunvisited
      | close hv' _ => exact absurd hv' hinProgress
      | pass _ _ hlater' => exact ih hlater'

end Ends

/-! ## §2. Every search ends. -/

/-- The path is no longer than there are distinct nodes. -/
theorem Moment.length_path_le {g : Digraph α} {depth : Nat} {s : Search α} {targets : List α}
    (h : Moment g depth s targets) : s.path.length ≤ g.order.dedup.length := by
  obtain ⟨left, hs, -, -⟩ := h.sound
  refine (List.subperm_of_subset hs.path_nodup ?_).length_le
  exact fun v hv => List.mem_dedup.mpr (hs.path_subset hv)

/-- What is next at a moment is followed to its end, with visits nested at most as deep as
there are distinct nodes that are not on the path. -/
theorem Moment.ends {g : Digraph α} : ∀ {depth : Nat} {s : Search α} {targets : List α},
    Moment g depth s targets → ∀ nested, g.order.dedup.length ≤ nested + s.path.length →
      ∃ visits, Ends g nested s targets visits (targets.foldl (follow g depth) s) := by
  intro depth
  induction depth with
  | zero =>
      intro s targets h
      obtain ⟨below, hbelow⟩ := h.exists_depth
      cases hbelow
  | succ depth ih =>
      intro s targets
      induction targets generalizing s with
      | nil => exact fun _ _ _ => ⟨[], .nil⟩
      | cons v targets ihtargets =>
          intro h nested hnested
          obtain ⟨later, hlater⟩ :=
            ihtargets h.followed nested (by rw [h.path_followed]; exact hnested)
          rw [List.foldl_cons]
          by_cases hunvisited : s.mark v = some .unvisited
          · have hentered := h.entered hunvisited
            -- the path has room for one more node, so one more visit may be nested
            have hroom := hentered.length_path_le
            rw [enter_path, List.length_append, List.length_singleton] at hroom
            obtain ⟨below, rfl⟩ : ∃ below, nested = below + 1 := ⟨nested - 1, by omega⟩
            obtain ⟨inner, hinner⟩ := ih hentered below (by
              rw [enter_path, List.length_append, List.length_singleton]
              omega)
            rw [follow_of_unvisited hunvisited] at hlater ⊢
            exact ⟨v :: inner ++ later, .visit hunvisited hinner hlater⟩
          · by_cases hinProgress : s.mark v = some .inProgress
            · rw [follow_of_inProgress hinProgress] at hlater ⊢
              exact ⟨later, .close hinProgress hlater⟩
            · rw [follow_of_settled hunvisited hinProgress] at hlater ⊢
              exact ⟨later, .pass hunvisited hinProgress hlater⟩

/-- **A search ends, without any limit on how deep visits are nested, in the state that is
reached with the limit.**  Visits are nested at most as deep as there are distinct nodes; every
node of the order is visited once and no other node ever is; and in the end all of them are
done. -/
theorem run_ends (g : Digraph α) :
    Ends g g.order.dedup.length (start g) g.order (run g).entered (run g) ∧
    (∀ depth visits t, Ends g depth (start g) g.order visits t →
      visits = (run g).entered ∧ t = run g) ∧
    (∀ v, (run g).entered.count v = if v ∈ g.order then 1 else 0) ∧
    ∀ v ∈ g.order, (run g).mark v = some .done := by
  obtain ⟨visits, hends⟩ := (Moment.first (g := g)).ends g.order.dedup.length (Nat.le_add_right _ _)
  have hrun : Ends g g.order.dedup.length (start g) g.order visits (run g) := hends
  have hvisits : (run g).entered = visits := hrun.entered
  rw [← hvisits] at hrun
  obtain ⟨left, hs, hpath, hleft⟩ := sound_run g
  refine ⟨hrun, fun depth visits t h => hrun.unique h, ?_, ?_⟩
  · intro v
    have hentered : v ∈ (run g).entered ↔ v ∈ g.order := by
      rw [hs.mem_entered, hpath, hleft]
      simp
    rw [hs.entered_nodup.count]
    simp only [hentered]
  · exact fun v hv => (hs.mem_left v).mp ((hleft v).mpr hv)

/-- A node that the order names twice, one with an edge to itself, and an edge out of the
order. -/
example : (run ⟨[1, 2, 1], fun v => if v = 1 then [2, 7, 2] else [2]⟩).entered = [1, 2] := by decide

end CiPipeline.Graph.Search
