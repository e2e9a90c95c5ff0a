/-
  CiPipeline.Graph.Cycles
  ───────────────────────
  **Rings of a directed graph, found by depth-first search.**

  The nodes are visited in a given order, and from each node the targets of its
  edges.  An edge to a node whose visit is under way closes a ring, which is
  reported with that node at both ends; an edge to a node that is done, or to one
  outside the order, says nothing.  A visit never stands inside another one of the
  same node, so the number of nodes bounds how deep visits are nested.
-/

namespace CiPipeline.Graph

/-- How far the visit of a node is. -/
inductive Mark where
  | unvisited
  | inProgress
  | done
  deriving DecidableEq, Repr

/-- The nodes of a directed graph in an order, and the targets of the edges of
each. -/
structure Digraph (α : Type) where
  order : List α
  edges : α → List α

/-- The state of a search. -/
structure Search (α : Type) where
  /-- The marks of the nodes; those outside the order have none. -/
  mark : α → Option Mark
  /-- The nodes whose visit is under way, from the first to the latest. -/
  path : List α
  /-- The rings so far. -/
  cycles : List (List α)
  /-- The nodes in the order in which their visits began. -/
  entered : List α

namespace Search

variable {α : Type} [DecidableEq α]

/-- The state before a search. -/
def start (g : Digraph α) : Search α where
  mark v := if v ∈ g.order then some .unvisited else none
  path := []
  cycles := []
  entered := []

/-- Gives a node another mark. -/
def setMark (s : Search α) (v : α) (m : Mark) : Search α :=
  { s with mark := fun w => if w = v then some m else s.mark w }

/-- The visit of a node begins. -/
def enter (s : Search α) (v : α) : Search α :=
  let s := s.setMark v .inProgress
  { s with path := s.path ++ [v], entered := s.entered ++ [v] }

/-- The visit of a node ends. -/
def leave (s : Search α) (v : α) : Search α :=
  let s := s.setMark v .done
  { s with path := s.path.dropLast }

/-- The part of the path from a node on, closed by the node. -/
def ringAt (path : List α) (v : α) : List α :=
  -- a node whose visit is under way is on the path, so it is always found there
  path.drop ((path.idxOf? v).getD 0) ++ [v]

/-- Reports the ring that an edge to a node under way closes. -/
def close (s : Search α) (v : α) : Search α :=
  { s with cycles := s.cycles ++ [ringAt s.path v] }

/-- Follows an edge to a node, with so many visits left that may be nested. -/
def follow (g : Digraph α) : Nat → Search α → α → Search α
  -- never reached: a path is no longer than the order
  | 0, s, _ => s
  | depth + 1, s, v =>
      match s.mark v with
      | some .unvisited => ((g.edges v).foldl (follow g depth) (s.enter v)).leave v
      | some .inProgress => s.close v
      | some .done => s
      | none => s

/-- The state after a search from all nodes of the order. -/
def run (g : Digraph α) : Search α :=
  g.order.foldl (follow g (g.order.length + 1)) (start g)

end Search

/-- The rings that a search finds. -/
def Digraph.cycles {α : Type} [DecidableEq α] (g : Digraph α) : List (List α) :=
  (Search.run g).cycles

end CiPipeline.Graph
