/-
  CiPipeline.Proofs.Chain.Step
  ────────────────────────────
  **One link of a run.**

  A run performs its first link and is aborted, or halts, or goes on with the links
  that are left.  Each of the three is one equation (`Chain.runFrom_cons_of_error`,
  `Chain.runFrom_cons_of_halts`, `Chain.runFrom_cons_of_goesOn`), so that what is known
  of runs need not look into the recursion.
-/
import CiPipeline.Chain.Run

namespace CiPipeline

namespace Chain

/-- What is told of the work of a link, whatever comes of it. -/
def workTrace (notes : List Note) : List Notice :=
  .log (.debug "Performing chain link") :: notes.map .note

variable {L : Type} [Link L] {a : RunAttributes} {performed : List String} {link next : L}
  {links : List L} {c d : Creation} {s t : Stores} {notes : List Note}

/-- A link that fails aborts the run. -/
theorem runFrom_cons_of_error {e : CreationError}
    (h : Link.work link c s = ⟨.error e, next, d, t, notes⟩) :
    runFrom a performed (link :: links) c s =
      ⟨.error e, next :: links, d, t,
        workTrace notes ++ failedTrace a (Link.name link) performed d e⟩ := by
  unfold runFrom
  dsimp only
  rw [h]
  rfl

/-- A link after which the chain halts is the last one of the run. -/
theorem runFrom_cons_of_halts (h : Link.work link c s = ⟨.ok (), next, d, t, notes⟩)
    (hhalts : Link.halts next d = true) :
    runFrom a performed (link :: links) c s =
      ⟨.ok ⟨performed ++ [Link.name link], some (Link.name link)⟩, next :: links, d, t,
        workTrace notes ++ performedTrace (Link.name link) ++
          haltedTrace a (Link.name link) d⟩ := by
  unfold runFrom
  dsimp only
  rw [h]
  dsimp only
  rw [if_pos hhalts]
  rfl

/-- After any other link the run goes on with the next one. -/
theorem runFrom_cons_of_goesOn (h : Link.work link c s = ⟨.ok (), next, d, t, notes⟩)
    (hhalts : Link.halts next d = false) :
    runFrom a performed (link :: links) c s =
      let rest := runFrom a (performed ++ [Link.name link]) links d t
      { rest with
        links := next :: rest.links
        trace := workTrace notes ++ performedTrace (Link.name link) ++ rest.trace } := by
  have hgoesOn : ¬Link.halts next d = true := by
    rw [hhalts]
    exact Bool.false_ne_true
  rw [runFrom]
  dsimp only
  rw [h]
  dsimp only
  rw [if_neg hgoesOn]
  rfl

end Chain

/-! ## Events of a run. -/

namespace Notice

@[simp] theorem events_append (trace trace' : List Notice) :
    events (trace ++ trace') = events trace ++ events trace' :=
  List.filterMap_append

@[simp] theorem events_log (line : LogLine) (trace : List Notice) :
    events (.log line :: trace) = events trace := rfl

@[simp] theorem events_event (e : RunEvent) (trace : List Notice) :
    events (.event e :: trace) = e :: events trace := rfl

/-- The work of a link is not told in events. -/
@[simp] theorem events_workTrace (notes : List Note) : events (Chain.workTrace notes) = [] := by
  unfold events Chain.workTrace
  rw [List.filterMap_cons_none rfl, List.filterMap_map, List.filterMap_eq_nil_iff]
  exact fun _ _ => rfl

@[simp] theorem events_performedTrace (name : String) :
    events (Chain.performedTrace name) = [.linkCompleted name] := rfl

@[simp] theorem events_failedTrace (a : RunAttributes) (name : String) (performed : List String)
    (c : Creation) (e : CreationError) :
    events (Chain.failedTrace a name performed c e) =
      [.failed { a with link := some name, iid := c.pipeline.iid } name performed e] := rfl

@[simp] theorem events_haltedTrace (a : RunAttributes) (name : String) (c : Creation) :
    events (Chain.haltedTrace a name c) =
      [.halted { a with link := some name, iid := c.pipeline.iid } c.pipeline.errors] := rfl

@[simp] theorem events_completedTrace (a : RunAttributes) (performed : List String)
    (c : Creation) :
    events (Chain.completedTrace a performed c) =
      [.completed { a with iid := c.pipeline.iid } performed] := rfl

end Notice

end CiPipeline
