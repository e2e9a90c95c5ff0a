/-
  CiPipeline.Proofs.Chain.Trace
  ─────────────────────────────
  **What a run tells is what it has done.**

  Nothing is assumed of the links but that they are links: what they do and when they
  halt the chain is up to them.  Performing them one after the other is a left fold
  over the creation and the stores (`Chain.performAll`).  A run gets through some of the
  links and then takes one of three exits (`Chain.Exit`): the next link fails, the chain
  halts after the last one, or there are no links left.  Its events, its answer and what
  it leaves behind all tell the same about that.

  Main statement: `run_told`.
-/
import CiPipeline.Proofs.Chain.Step

namespace CiPipeline

namespace Chain

variable {L : Type} [Link L]

/-! ## §1. Links one after the other. -/

/-- What a link makes of a creation and of the stores. -/
def perform (x : Creation × Stores) (link : L) : Creation × Stores :=
  let p := Link.work link x.1 x.2
  (p.creation, p.stores)

/-- What links make of a creation and of the stores, one after the other. -/
def performAll (links : List L) (x : Creation × Stores) : Creation × Stores :=
  links.foldl perform x

/-- The work of the link in a place, on what the links before it have left. -/
def workAt? (links : List L) (x : Creation × Stores) (i : Nat) : Option (Performed L) :=
  links[i]?.map fun link =>
    let y := performAll (links.take i) x
    Link.work link y.1 y.2

/-- The link in a place does its work. -/
def DoneAt (links : List L) (x : Creation × Stores) (i : Nat) : Prop :=
  ∃ p, workAt? links x i = some p ∧ p.result = .ok ()

/-- The link in a place fails. -/
def FailsAt (links : List L) (x : Creation × Stores) (i : Nat) (e : CreationError) : Prop :=
  ∃ p, workAt? links x i = some p ∧ p.result = .error e

/-- The chain halts after the link in a place. -/
def HaltsAt (links : List L) (x : Creation × Stores) (i : Nat) : Prop :=
  ∃ p, workAt? links x i = some p ∧ Link.halts p.link p.creation = true

/-- What is left by a run that performs the first `m` links and no others. -/
structure Leaves (links : List L) (x : Creation × Stores) (m : Nat) (r : Run L) : Prop where
  state : (r.creation, r.stores) = performAll (links.take m) x
  links : ∀ i, r.links[i]? = if i < m then (workAt? links x i).map (·.link) else links[i]?

theorem workAt?_succ {link : L} {links : List L} {x : Creation × Stores} (i : Nat) :
    workAt? (link :: links) x (i + 1) = workAt? links (perform x link) i := rfl

/-- What holds of the first place and of all behind it holds of the first `n + 1` places. -/
theorem forall_lt_succ {P : Nat → Prop} {n : Nat} (hfirst : P 0) (hrest : ∀ i < n, P (i + 1)) :
    ∀ i < n + 1, P i := by
  intro i hi
  cases i with
  | zero => exact hfirst
  | succ i => exact hrest i (by omega)

/-! ## §2. The three exits. -/

/-- How a run ends that has got through the first `n` links, and the last event that tells
it.  The links `before` have been performed before these. -/
inductive Exit (a : RunAttributes) (before : List String) (links : List L)
    (x : Creation × Stores) : Nat → RunEvent → Run L → Prop where
  /-- The next link fails. -/
  | failed {n : Nat} {link : L} {e : CreationError} {r : Run L} (next : links[n]? = some link)
      (fails : FailsAt links x n e) (goesOn : ∀ i < n, ¬HaltsAt links x i)
      (result : r.result = .error e) (leaves : Leaves links x (n + 1) r) :
      Exit a before links x n
        (.failed { a with link := some (Link.name link), iid := r.creation.pipeline.iid }
          (Link.name link) (before ++ (links.map Link.name).take n) e) r
  /-- The chain halts after the last of them, and after none before it. -/
  | halted {n : Nat} {link : L} {r : Run L} (last : links[n]? = some link)
      (halts : HaltsAt links x n) (goesOn : ∀ i < n, ¬HaltsAt links x i)
      (result : r.result =
        .ok ⟨before ++ (links.map Link.name).take (n + 1), some (Link.name link)⟩)
      (leaves : Leaves links x (n + 1) r) :
      Exit a before links x (n + 1)
        (.halted { a with link := some (Link.name link), iid := r.creation.pipeline.iid }
          r.creation.pipeline.errors) r
  /-- There are no links left. -/
  | completed {r : Run L} (goesOn : ∀ i < links.length, ¬HaltsAt links x i)
      (result : r.result = .ok ⟨before ++ links.map Link.name, none⟩)
      (leaves : Leaves links x links.length r) :
      Exit a before links x links.length
        (.completed { a with iid := r.creation.pipeline.iid }
          (before ++ links.map Link.name)) r

/-- A run gets through the first `n` links, tells so, and exits. -/
structure Course (a : RunAttributes) (before : List String) (links : List L)
    (x : Creation × Stores) (n : Nat) (last : RunEvent) (r : Run L) : Prop where
  done : ∀ i < n, DoneAt links x i
  events : Notice.events r.trace =
    ((links.map Link.name).take n).map RunEvent.linkCompleted ++ [last]
  exit : Exit a before links x n last r

/-! ## §3. One link of a run. -/

section Step

variable {a : RunAttributes} {before : List String} {link next : L} {links : List L}
  {c d : Creation} {s t : Stores} {notes : List Note} {r : Run L}

theorem workAt?_first {p : Performed L} (h : Link.work link c s = p) :
    workAt? (link :: links) (c, s) 0 = some p :=
  congrArg some h

/-- Whether the chain halts after the first link. -/
theorem haltsAt_first_iff {result : Except CreationError Unit}
    (h : Link.work link c s = ⟨result, next, d, t, notes⟩) :
    HaltsAt (link :: links) (c, s) 0 ↔ Link.halts next d = true := by
  constructor
  · rintro ⟨p, hp, hhalts⟩
    cases (workAt?_first h).symm.trans hp
    exact hhalts
  · intro hhalts
    exact ⟨_, workAt?_first h, hhalts⟩

theorem perform_of_work {result : Except CreationError Unit}
    (h : Link.work link c s = ⟨result, next, d, t, notes⟩) : perform (c, s) link = (d, t) := by
  unfold perform
  rw [h]

/-- A run that ends with its first link leaves all others as they are. -/
theorem leaves_first {result : Except CreationError Unit}
    (h : Link.work link c s = ⟨result, next, d, t, notes⟩) (hcreation : r.creation = d)
    (hstores : r.stores = t) (hlinks : r.links = next :: links) :
    Leaves (link :: links) (c, s) 1 r := by
  constructor
  · show (r.creation, r.stores) = perform (c, s) link
    rw [perform_of_work h, hcreation, hstores]
  · intro i
    rw [hlinks]
    cases i with
    | zero =>
        show some next = (some (Link.work link c s)).map (·.link)
        rw [h]
        rfl
    | succ i => rfl

/-- A run that goes on leaves what the first link and the rest of the run leave. -/
theorem leaves_cons {result : Except CreationError Unit} {m : Nat} {rest : Run L}
    (h : Link.work link c s = ⟨result, next, d, t, notes⟩) (hrest : Leaves links (d, t) m rest)
    (hcreation : r.creation = rest.creation) (hstores : r.stores = rest.stores)
    (hlinks : r.links = next :: rest.links) : Leaves (link :: links) (c, s) (m + 1) r := by
  have hperform := perform_of_work h
  constructor
  · show (r.creation, r.stores) = performAll (links.take m) (perform (c, s) link)
    rw [hperform, ← hrest.state, hcreation, hstores]
  · intro i
    rw [hlinks]
    cases i with
    | zero =>
        show some next = (some (Link.work link c s)).map (·.link)
        rw [h]
        rfl
    | succ i =>
        show rest.links[i]? = _
        rw [hrest.links i, workAt?_succ, hperform]
        simp only [Nat.add_lt_add_iff_right, List.getElem?_cons_succ]

/-- A run without links exits at once. -/
theorem course_nil :
    ∃ last, Course a before [] (c, s) 0 last (runFrom a before ([] : List L) c s) := by
  refine ⟨_, nofun, ?_, .completed nofun ?_ ⟨rfl, fun i => rfl⟩⟩
  · simp [runFrom]
  · simp [runFrom]

/-- A link that fails is the exit of the run. -/
theorem course_of_error {e : CreationError}
    (h : Link.work link c s = ⟨.error e, next, d, t, notes⟩) :
    ∃ last, Course a before (link :: links) (c, s) 0 last
      (runFrom a before (link :: links) c s) := by
  have hfails : FailsAt (link :: links) (c, s) 0 e := ⟨_, workAt?_first h, rfl⟩
  rw [runFrom_cons_of_error h]
  refine ⟨_, nofun, ?_, .failed rfl hfails nofun rfl (leaves_first h rfl rfl rfl)⟩
  simp

/-- A link after which the chain halts is the exit, too, and it is performed. -/
theorem course_of_halts (h : Link.work link c s = ⟨.ok (), next, d, t, notes⟩)
    (hhalts : Link.halts next d = true) :
    ∃ last, Course a before (link :: links) (c, s) 1 last
      (runFrom a before (link :: links) c s) := by
  have hdone : DoneAt (link :: links) (c, s) 0 := ⟨_, workAt?_first h, rfl⟩
  have hhaltsAt : HaltsAt (link :: links) (c, s) 0 := (haltsAt_first_iff h).mpr hhalts
  rw [runFrom_cons_of_halts h hhalts]
  refine ⟨_, forall_lt_succ hdone nofun, ?_,
    .halted rfl hhaltsAt nofun rfl (leaves_first h rfl rfl rfl)⟩
  simp

/-- The exit of the rest of a run is the exit of the run. -/
theorem Exit.cons {x : Creation × Stores} {n : Nat} {last : RunEvent} {rest : Run L}
    (hgoesOn : ¬HaltsAt (link :: links) x 0) (hresult : r.result = rest.result)
    (hcreation : r.creation = rest.creation)
    (hleaves : ∀ m, Leaves links (perform x link) m rest → Leaves (link :: links) x (m + 1) r)
    (h : Exit a (before ++ [Link.name link]) links (perform x link) n last rest) :
    Exit a before (link :: links) x (n + 1) last r := by
  cases h with
  | @failed n link' e _ next' fails goesOn result leaves =>
      have hnext : (link :: links)[n + 1]? = some link' := next'
      have hfails : FailsAt (link :: links) x (n + 1) e := fails
      rw [List.append_assoc, ← hcreation]
      rw [← hresult] at result
      exact .failed hnext hfails (forall_lt_succ hgoesOn goesOn) result (hleaves _ leaves)
  | @halted n link' _ last' halts goesOn result leaves =>
      have hlast : (link :: links)[n + 1]? = some link' := last'
      have hhalts : HaltsAt (link :: links) x (n + 1) := halts
      rw [← hcreation]
      rw [List.append_assoc, ← hresult] at result
      exact .halted hlast hhalts (forall_lt_succ hgoesOn goesOn) result (hleaves _ leaves)
  | completed goesOn result leaves =>
      rw [List.append_assoc, ← hcreation]
      rw [List.append_assoc, ← hresult] at result
      exact .completed (forall_lt_succ hgoesOn goesOn) result (hleaves _ leaves)

/-- **After any other link the run takes the exit that the rest of it takes.** -/
theorem course_of_goesOn {n : Nat} {last : RunEvent}
    (h : Link.work link c s = ⟨.ok (), next, d, t, notes⟩)
    (hhalts : Link.halts next d = false)
    (hrest : Course a (before ++ [Link.name link]) links (d, t) n last
      (runFrom a (before ++ [Link.name link]) links d t)) :
    Course a before (link :: links) (c, s) (n + 1) last
      (runFrom a before (link :: links) c s) := by
  have hperform := perform_of_work h
  have hdone : DoneAt (link :: links) (c, s) 0 := ⟨_, workAt?_first h, rfl⟩
  have hgoesOn : ¬HaltsAt (link :: links) (c, s) 0 := by
    rw [haltsAt_first_iff h, hhalts]
    exact Bool.false_ne_true
  obtain ⟨hdones, htold, hexit⟩ := hrest
  rw [← hperform] at hdones hexit
  rw [runFrom_cons_of_goesOn h hhalts]
  constructor
  case done => exact forall_lt_succ hdone hdones
  case events => simp [htold]
  case exit =>
    refine Exit.cons hgoesOn ?_ ?_ (fun m hleaves => ?_) hexit
    · rfl
    · rfl
    · rw [hperform] at hleaves
      apply leaves_cons h hleaves
      · rfl
      · rfl
      · rfl

/-- **Every run of links has a course.** -/
theorem runFrom_course (links : List L) :
    ∀ (before : List String) (c : Creation) (s : Stores),
      ∃ n last, Course a before links (c, s) n last (runFrom a before links c s) := by
  induction links with
  | nil =>
      intro before c s
      exact ⟨0, course_nil⟩
  | cons link links ih =>
      intro before c s
      cases h : Link.work link c s with
      | mk result next d t notes =>
          cases result with
          | error e =>
              obtain ⟨last, hcourse⟩ := course_of_error h
              exact ⟨0, last, hcourse⟩
          | ok u =>
              cases hhalts : Link.halts next d with
              | true =>
                  obtain ⟨last, hcourse⟩ := course_of_halts h hhalts
                  exact ⟨1, last, hcourse⟩
              | false =>
                  obtain ⟨n, last, hrest⟩ := ih (before ++ [Link.name link]) d t
                  exact ⟨n + 1, last, course_of_goesOn h hhalts hrest⟩

end Step

namespace Exit

variable {a : RunAttributes} {before : List String} {links : List L} {x : Creation × Stores}
  {n : Nat} {last : RunEvent} {r : Run L}

/-- What else a run tells does not matter for its exit. -/
theorem retold (h : Exit a before links x n last r) (trace : List Notice) :
    Exit a before links x n last { r with trace := trace } := by
  cases h with
  | failed next fails goesOn result leaves =>
      exact .failed (r := { r with trace := trace }) next fails goesOn result
        ⟨leaves.state, leaves.links⟩
  | halted last halts goesOn result leaves =>
      exact .halted (r := { r with trace := trace }) last halts goesOn result
        ⟨leaves.state, leaves.links⟩
  | completed goesOn result leaves =>
      exact .completed (r := { r with trace := trace }) goesOn result
        ⟨leaves.state, leaves.links⟩

/-- The type of the last event tells the exits apart. -/
theorem type_eq (h : Exit a before links x n last r) :
    last.type =
      match r.result with
      | .error _ => "chain.failed"
      | .ok ⟨_, some _⟩ => "chain.halted"
      | .ok ⟨_, none⟩ => "chain.completed" := by
  cases h with
  | failed next fails goesOn result leaves => rw [result]; rfl
  | halted last halts goesOn result leaves => rw [result]; rfl
  | completed goesOn result leaves => rw [result]; rfl

/-- A run that takes one of the last two exits answers with the links that it got through. -/
theorem answer_eq (h : Exit a [] links x n last r) {o : Outcome} (ho : r.result = .ok o) :
    o.performed = (links.map Link.name).take n ∧
      ∀ link, o.haltedAt = some link → o.performed.getLast? = some link := by
  cases h with
  | failed next fails goesOn result leaves => cases ho.symm.trans result
  | @halted n link' _ last halts goesOn result leaves =>
      cases ho.symm.trans result
      refine ⟨rfl, ?_⟩
      intro link hlink
      cases hlink
      have hname : (links.map Link.name)[n]? = some (Link.name link') := by
        rw [List.getElem?_map, last]
        rfl
      rw [List.nil_append, List.take_add_one, hname]
      exact List.getLast?_concat
  | completed goesOn result leaves =>
      cases ho.symm.trans result
      refine ⟨?_, nofun⟩
      rw [List.nil_append]
      exact (List.take_of_length_le (Nat.le_of_eq (List.length_map _))).symm

end Exit

end Chain

/-! ## §4. A run of a chain. -/

/-- What a run of a chain tells, and what it has done: it gets through the first `n` links and
takes its exit. -/
structure Run.Told {L : Type} [Link L] (chain : Chain L) (c : Creation) (s : Stores) (n : Nat)
    (last : RunEvent) (r : Run L) : Prop where
  /-- The links that it gets through do their work. -/
  done : ∀ i < n, Chain.DoneAt chain.links (c, s) i
  /-- The events are the start with the names of all links, each link that has done its work,
  and one last event. -/
  events : Notice.events r.trace =
    .started (Chain.attributes c) chain.names ::
      ((chain.names.take n).map RunEvent.linkCompleted ++ [last])
  /-- The last event tells how the run has ended. -/
  lastType : last.type =
    match r.result with
    | .error _ => "chain.failed"
    | .ok ⟨_, some _⟩ => "chain.halted"
    | .ok ⟨_, none⟩ => "chain.completed"
  /-- A run that is not aborted answers with the links that it got through.  If the chain has
  halted it has done so after the last one of them. -/
  answer : ∀ o, r.result = .ok o → o.performed = chain.names.take n ∧
    ∀ link, o.haltedAt = some link → o.performed.getLast? = some link
  /-- What else the last event says, which links halt the chain, and what is left behind. -/
  exit : Chain.Exit (Chain.attributes c) [] chain.links (c, s) n last r

/-- **The events of a run, its answer and what it leaves behind tell the same**, whatever its
links are. -/
theorem run_told {L : Type} [Link L] (chain : Chain L) (c : Creation) (s : Stores) :
    ∃ n last, Run.Told chain c s n last (chain.run c s) := by
  obtain ⟨n, last, hdone, hevents, hexit⟩ :=
    Chain.runFrom_course (a := Chain.attributes c) chain.links [] c s
  -- the events before the first link are the only difference between the two runs
  have hexit' : Chain.Exit (Chain.attributes c) [] chain.links (c, s) n last (chain.run c s) :=
    hexit.retold _
  refine ⟨n, last, hdone, ?_, ?_, ?_, hexit'⟩
  · show Notice.events (.log _ :: .event _ :: (Chain.runFrom _ [] chain.links c s).trace) = _
    rw [Notice.events_log, Notice.events_event, hevents]
    rfl
  · exact hexit'.type_eq
  · intro o ho
    exact hexit'.answer_eq ho

end CiPipeline
