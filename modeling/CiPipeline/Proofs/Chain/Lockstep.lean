/-
  CiPipeline.Proofs.Chain.Lockstep
  ────────────────────────────────
  **Two runs that cannot be told apart.**

  Two runs go in lockstep when they answer the same, send the same events and leave
  the same stores, while their creations need only be related to each other.  What
  is to be shown for that is one link at a time: both links fail
  (`Run.lockstep_of_error`), or the chain halts after both (`Run.lockstep_of_halts`),
  or both runs go on, again in lockstep (`Run.lockstep_of_goesOn`).
-/
import CiPipeline.Proofs.Chain.Step

namespace CiPipeline

/-- Two runs go in lockstep.  The creations that they leave behind are related in a way that
may depend on the answer. -/
structure Run.Lockstep {L : Type}
    (related : Except CreationError Outcome → Creation → Creation → Prop) (r r' : Run L) :
    Prop where
  result : r'.result = r.result
  events : Notice.events r'.trace = Notice.events r.trace
  stores : r'.stores = r.stores
  creation : related r.result r.creation r'.creation

namespace Run

open Chain (runFrom)

variable {L : Type} [Link L] {related : Except CreationError Outcome → Creation → Creation → Prop}
  {a : RunAttributes} {performed : List String} {link link' next next' : L} {links links' : List L}
  {c c' d d' : Creation} {s s' t : Stores} {notes notes' : List Note}

/-- Two runs that have performed their last links. -/
theorem lockstep_nil (hiid : d'.pipeline.iid = d.pipeline.iid)
    (hrelated : related (.ok ⟨performed, none⟩) d d') :
    Lockstep related (runFrom a performed ([] : List L) d t) (runFrom a performed [] d' t) where
  result := rfl
  events := by
    unfold runFrom Chain.completedTrace
    rw [hiid]
  stores := rfl
  creation := hrelated

/-- Two links of one name that fail abort both runs. -/
theorem lockstep_of_error {e : CreationError} (hname : Link.name link' = Link.name link)
    (h : Link.work link c s = ⟨.error e, next, d, t, notes⟩)
    (h' : Link.work link' c' s' = ⟨.error e, next', d', t, notes'⟩)
    (hiid : d'.pipeline.iid = d.pipeline.iid) (hrelated : related (.error e) d d') :
    Lockstep related (runFrom a performed (link :: links) c s)
      (runFrom a performed (link' :: links') c' s') := by
  rw [Chain.runFrom_cons_of_error h, Chain.runFrom_cons_of_error h', hname]
  refine ⟨rfl, ?_, rfl, hrelated⟩
  simp [hiid]

/-- Two links of one name after which the chain halts are the last ones of both runs. -/
theorem lockstep_of_halts (hname : Link.name link' = Link.name link)
    (h : Link.work link c s = ⟨.ok (), next, d, t, notes⟩)
    (h' : Link.work link' c' s' = ⟨.ok (), next', d', t, notes'⟩)
    (hhalts : Link.halts next d = true) (hhalts' : Link.halts next' d' = true)
    (hiid : d'.pipeline.iid = d.pipeline.iid) (herrors : d'.pipeline.errors = d.pipeline.errors)
    (hrelated : related (.ok ⟨performed ++ [Link.name link], some (Link.name link)⟩) d d') :
    Lockstep related (runFrom a performed (link :: links) c s)
      (runFrom a performed (link' :: links') c' s') := by
  rw [Chain.runFrom_cons_of_halts h hhalts, Chain.runFrom_cons_of_halts h' hhalts', hname]
  refine ⟨rfl, ?_, rfl, hrelated⟩
  simp [hiid, herrors]

/-- **After any other two links of one name both runs go on, and they stay in lockstep if
what comes behind does.** -/
theorem lockstep_of_goesOn (hname : Link.name link' = Link.name link)
    (h : Link.work link c s = ⟨.ok (), next, d, t, notes⟩)
    (h' : Link.work link' c' s' = ⟨.ok (), next', d', t, notes'⟩)
    (hhalts : Link.halts next d = false) (hhalts' : Link.halts next' d' = false)
    (hrest : Lockstep related (runFrom a (performed ++ [Link.name link]) links d t)
      (runFrom a (performed ++ [Link.name link]) links' d' t)) :
    Lockstep related (runFrom a performed (link :: links) c s)
      (runFrom a performed (link' :: links') c' s') := by
  obtain ⟨hresult, hevents, hstores, hrelated⟩ := hrest
  rw [Chain.runFrom_cons_of_goesOn h hhalts, Chain.runFrom_cons_of_goesOn h' hhalts', hname]
  refine ⟨hresult, ?_, hstores, hrelated⟩
  simp [hevents]

/-- The events before the first link tell the attributes of the run and its links. -/
theorem Lockstep.run {chain chain' : Chain L} (hnames : chain'.names = chain.names)
    (hattributes : Chain.attributes c' = Chain.attributes c)
    (h : Lockstep related (runFrom (Chain.attributes c) [] chain.links c s)
      (runFrom (Chain.attributes c) [] chain'.links c' s')) :
    Lockstep related (chain.run c s) (chain'.run c' s') := by
  obtain ⟨hresult, hevents, hstores, hrelated⟩ := h
  unfold Chain.run
  dsimp only
  rw [hattributes, hnames]
  refine ⟨hresult, ?_, hstores, hrelated⟩
  simp [hevents]

end Run

end CiPipeline
