/-
  CiPipeline.Proofs.History.Allocation
  ────────────────────────────────────
  **Where the numbers of a project go.**

  A creation arrives at the sequences when it is run with a definition while they
  work.  Those of a project that arrive are given the numbers behind the last one, in
  the order of their first arrivals, whatever becomes of the runs afterwards; only an
  exhausted sequence gives none.  A creation keeps its number, so that none is taken
  twice, none is lost, and the counter of the project stands at the last one that is
  given (`numbers_accounted`).
-/
import CiPipeline.Proofs.History.Numbers

namespace CiPipeline

/-! ## §1. What one run takes. -/

/-- The run of a creation gets as far as the sequences. -/
def Creation.arrives (c : Creation) (s : Stores) : Bool :=
  c.definition.isSome && !s.faults.sequences

/-- What a run does about the number of its creation. -/
inductive Allocation (c : Creation) (s : Stores) (r : Run CreationLink) : Prop where
  /-- It does not get as far as the sequences. -/
  | absent (arrives : c.arrives s = false)
      (iid : r.creation.pipeline.iid = c.pipeline.iid)
      (sequences : r.stores.sequences = s.sequences)
  /-- The creation has a number. -/
  | kept (n : Int64) (has : c.pipeline.iid = some n) (arrives : c.arrives s = true)
      (iid : r.creation.pipeline.iid = c.pipeline.iid)
      (sequences : r.stores.sequences = s.sequences)
  /-- There are no numbers left. -/
  | refused (lacks : c.pipeline.iid = none) (arrives : c.arrives s = true)
      (exhausted : s.sequences.Exhausted (.pipelines c.pipeline.projectId))
      (iid : r.creation.pipeline.iid = c.pipeline.iid)
      (sequences : r.stores.sequences = s.sequences)
  /-- The creation takes the next number of its project. -/
  | taken (n : Int64) (lacks : c.pipeline.iid = none) (arrives : c.arrives s = true)
      (next : s.sequences.next (.pipelines c.pipeline.projectId) = (.ok n, r.stores.sequences))
      (iid : r.creation.pipeline.iid = some n)

/-- While sequences fail no number is taken. -/
theorem Pipeline.takeNumber_of_fault {p : Pipeline} {s : Stores}
    (h : s.faults.sequences = true) :
    (p.takeNumber s).pipeline = p ∧ (p.takeNumber s).stores = s := by
  unfold takeNumber Stores.nextNumber
  rw [h]
  cases p.iid with
  | some n => exact ⟨rfl, rfl⟩
  | none => exact ⟨rfl, rfl⟩

/-- While they work, a pipeline without a number takes the next one of its project, or
there is none. -/
theorem Pipeline.takeNumber_of_none {p : Pipeline} {s : Stores} (h : s.faults.sequences = false)
    (hnone : p.iid = none) :
    (∃ n, s.sequences.next (.pipelines p.projectId) = (.ok n, (p.takeNumber s).stores.sequences) ∧
      (p.takeNumber s).pipeline.iid = some n) ∨
    (s.sequences.Exhausted (.pipelines p.projectId) ∧ (p.takeNumber s).pipeline = p ∧
      (p.takeNumber s).stores.sequences = s.sequences) := by
  obtain ⟨n, hn, -⟩ | ⟨-, e, htake⟩ | ⟨-, n, sequences, hnext, htake⟩ := p.takeNumber_cases s
  · rw [hnone] at hn
    cases hn
  · refine .inr ⟨?_, by rw [htake], by rw [htake]⟩
    -- the refusal is that of the sequence itself
    unfold takeNumber Stores.nextNumber at htake
    rw [hnone, h] at htake
    cases hnext : s.sequences.next (.pipelines p.projectId) with
    | mk result t =>
        cases result with
        | error e' => exact Sequences.exhausted_of_next hnext
        | ok n =>
            rw [hnext] at htake
            cases htake
  · rw [htake]
    exact .inl ⟨n, hnext, rfl⟩

/-- **A run takes a number only for a creation that has none, and then it is the next
one of the project.** -/
theorem Ending.allocation [Regex.Engine] {memo : Option GraphMemo} {c : Creation} {s : Stores}
    {r : Run CreationLink} (h : Ending memo c s r) (hblock : c.BlockSetsVars) :
    Allocation c s r := by
  obtain ⟨hdefinition, hiid, hsequences⟩ | ⟨hdefinition, hiid, hsequences⟩ := h.number hblock
  · refine .absent ?_ hiid hsequences
    unfold Creation.arrives
    rw [hdefinition]
    rfl
  · unfold Creation.numbering at hiid hsequences
    cases hfault : s.faults.sequences with
    | true =>
        obtain ⟨hpipeline, hstores⟩ := c.pipeline.takeNumber_of_fault hfault
        rw [hpipeline] at hiid
        rw [hstores] at hsequences
        refine .absent ?_ hiid hsequences
        unfold Creation.arrives
        rw [hfault]
        exact Bool.and_false _
    | false =>
        have harrives : c.arrives s = true := by
          unfold Creation.arrives
          rw [hfault, Option.isSome_iff_ne_none.mpr hdefinition]
          rfl
        cases hhas : c.pipeline.iid with
        | some n =>
            rw [Pipeline.takeNumber_of_iid hhas] at hiid hsequences
            exact .kept n hhas harrives hiid hsequences
        | none =>
            obtain ⟨n, hnext, hn⟩ | ⟨hexhausted, hpipeline, hsame⟩ :=
              Pipeline.takeNumber_of_none hfault hhas
            · rw [← hsequences] at hnext
              exact .taken n hhas harrives hnext (hiid.trans hn)
            · rw [hpipeline] at hiid
              exact .refused hhas harrives hexhausted hiid (hsequences.trans hsame)

/-- A run whose number is refused has changed nothing. -/
theorem Ending.unchanged_of_refused [Regex.Engine] {memo : Option GraphMemo} {c : Creation}
    {s : Stores} {r : Run CreationLink} {cause : SequenceError} (h : Ending memo c s r)
    (hrefused : r.result = .error (.allocation cause)) :
    r.creation = c ∧ r.stores = s := by
  cases h with
  | undefined trace definition => cases hrefused
  | unprepared trace definition refused =>
      cases hrefused
      have hprepared := c.preparation s
      generalize c.prepare s = w at hprepared refused ⊢
      cases hprepared with
      | unnumbered notes unnumbered =>
          have htake : c.numbering s = _ := Pipeline.takeNumber_of_refused unnumbered
          rw [htake]
          exact ⟨rfl, rfl⟩
      | unregistered notes numbered unregistered => cases refused
      | prepared notes numbered registered => cases refused
  | haltedAtSeed trace seeded mistaken => cases hrefused
  | haltedAtRules trace seeded clean verdict => cases hrefused
  | haltedAtBlock trace passed mistaken => cases hrefused
  | haltedAtCreate trace ready empty => cases hrefused
  | unpersisted trace ready nonempty faulty => cases hrefused
  | complete trace ready nonempty healthy => cases hrefused

/-! ## §2. The books of the projects. -/

/-- A number that is handed out becomes the last one of its project, and the other
projects do not hear of it. -/
theorem Sequences.current?_of_next {s t : Sequences} {project : ProjectId} {n : Int64}
    (h : s.next (.pipelines project) = (.ok n, t)) (other : ProjectId) :
    t.current? (.pipelines other) =
      if other = project then some n else s.current? (.pipelines other) := by
  obtain ⟨-, rfl⟩ := next_eq_ok h
  rw [current?_set]
  by_cases hother : other = project
  · rw [if_pos hother, if_pos (by rw [hother])]
  · have hscope : SequenceScope.pipelines other ≠ .pipelines project := by
      intro heq
      exact hother (SequenceScope.mk.inj heq).2
    rw [if_neg hother, if_neg hscope]

/-- Whoever comes for the first time comes last. -/
theorem eraseDups_concat (l : List Nat) (a : Nat) :
    (l ++ [a]).eraseDups = if a ∈ l then l.eraseDups else l.eraseDups ++ [a] := by
  rw [List.eraseDups_append]
  by_cases ha : a ∈ l
  · rw [if_pos ha]
    simp [List.removeAll, ha]
  · rw [if_neg ha]
    simp [List.removeAll, ha, List.eraseDups_cons]

/-- The numbers that the creations of a project have, in the order of their first
arrivals. -/
def givenNumbers (keys : Nat → PipelineKey) (arrived : List Nat) (project : ProjectId) :
    List Int64 :=
  (arrived.eraseDups.filter fun c => (keys c).projectId = project).filterMap fun c => (keys c).iid

/-- The books are in order between two moments: whoever has a number has arrived, the
numbers of each project go on from its last one without a gap, the counters stand at
the last of them, and nobody was sent away who could have been given one. -/
structure Booked (keys : Nat → PipelineKey) (start now : Sequences) (arrived : List Nat) :
    Prop where
  unknown : ∀ c, c ∉ arrived → (keys c).iid = none
  consecutive : ∀ (project : ProjectId) (i : Nat) (n : Int64),
    (givenNumbers keys arrived project)[i]? = some n → n.toInt = start.lastOf project + (i + 1)
  last : ∀ project, now.current? (.pipelines project) =
    (givenNumbers keys arrived project).getLast?.or (start.current? (.pipelines project))
  refused : ∀ c ∈ arrived, (keys c).iid = none →
    now.Exhausted (.pipelines (keys c).projectId)

namespace Booked

variable {keys : Nat → PipelineKey} {start now t : Sequences} {arrived : List Nat}

/-- Before anybody arrives the books are in order. -/
theorem init (h : ∀ c, (keys c).iid = none) (s : Sequences) : Booked keys s s [] where
  unknown := fun c _ => h c
  consecutive := fun _ _ _ hn => by cases hn
  last := fun _ => rfl
  refused := fun c hc => absurd hc List.not_mem_nil

/-- The last number of a project, counted from where it started. -/
theorem lastOf_eq (h : Booked keys start now arrived) (project : ProjectId) :
    now.lastOf project = start.lastOf project + (givenNumbers keys arrived project).length := by
  unfold Sequences.lastOf
  rw [h.last project]
  cases hlast : (givenNumbers keys arrived project).getLast? with
  | none =>
      rw [List.getLast?_eq_none_iff.mp hlast]
      exact (Int.add_zero _).symm
  | some n =>
      have hne : givenNumbers keys arrived project ≠ [] := by
        intro hnil
        rw [hnil] at hlast
        cases hlast
      have hpos := List.length_pos_iff.mpr hne
      rw [List.getLast?_eq_getElem?] at hlast
      have hn := h.consecutive project _ n hlast
      unfold Sequences.lastOf at hn
      show n.toInt = _
      omega

/-- An arrival that brings no number into the list leaves the books in order. -/
theorem arrive_for_nothing (h : Booked keys start now arrived) {c : Nat}
    (hgiven : ∀ project, givenNumbers keys (arrived ++ [c]) project =
      givenNumbers keys arrived project)
    (hc : (keys c).iid = none → now.Exhausted (.pipelines (keys c).projectId)) :
    Booked keys start now (arrived ++ [c]) := by
  refine ⟨?_, ?_, ?_, ?_⟩
  · intro c' hc'
    exact h.unknown c' fun hmem => hc' (List.mem_append_left _ hmem)
  · intro project i n hn
    rw [hgiven] at hn
    exact h.consecutive project i n hn
  · intro project
    rw [hgiven]
    exact h.last project
  · intro c' hc' hnone
    rcases List.mem_append.mp hc' with hc' | hc'
    · exact h.refused c' hc' hnone
    · rw [List.mem_singleton.mp hc'] at hnone ⊢
      exact hc hnone

/-- A creation that has a number has been here before. -/
theorem arrive_again (h : Booked keys start now arrived) {c : Nat} {n : Int64}
    (hn : (keys c).iid = some n) : Booked keys start now (arrived ++ [c]) := by
  have hc : c ∈ arrived := by
    by_contra hnew
    rw [h.unknown c hnew] at hn
    cases hn
  refine h.arrive_for_nothing ?_ ?_
  · intro project
    unfold givenNumbers
    rw [eraseDups_concat, if_pos hc]
  · exact h.refused c hc

/-- A creation that is refused takes no place among the numbers. -/
theorem arrive_refused (h : Booked keys start now arrived) {c : Nat}
    (hnone : (keys c).iid = none) (hexhausted : now.Exhausted (.pipelines (keys c).projectId)) :
    Booked keys start now (arrived ++ [c]) := by
  refine h.arrive_for_nothing ?_ fun _ => hexhausted
  intro project
  unfold givenNumbers
  rw [eraseDups_concat]
  split
  case isTrue => rfl
  case isFalse =>
    have hnothing : ([c].filter fun c => (keys c).projectId = project).filterMap
        (fun c => (keys c).iid) = [] := by
      refine List.filterMap_eq_nil_iff.mpr ?_
      intro c' hc'
      rw [List.mem_singleton.mp (List.mem_filter.mp hc').1]
      exact hnone
    rw [List.filter_append, List.filterMap_append, hnothing, List.append_nil]

/-- The number that a new creation takes comes behind all numbers of its project. -/
theorem givenNumbers_take {c : Nat} (hc : c ∉ arrived) (n : Int64) (project : ProjectId) :
    givenNumbers (Function.update keys c ⟨(keys c).projectId, some n⟩) (arrived ++ [c]) project =
      givenNumbers keys arrived project ++ if project = (keys c).projectId then [n] else [] := by
  have hbefore : ∀ c' ∈ arrived.eraseDups,
      Function.update keys c ⟨(keys c).projectId, some n⟩ c' = keys c' := by
    intro c' hc'
    refine Function.update_of_ne ?_ _ _
    intro heq
    rw [heq, List.mem_eraseDups] at hc'
    exact hc hc'
  unfold givenNumbers
  rw [eraseDups_concat, if_neg hc, List.filter_append, List.filterMap_append]
  congr 1
  · have hfilter : (arrived.eraseDups.filter fun c' => decide
        ((Function.update keys c ⟨(keys c).projectId, some n⟩ c').projectId = project)) =
        arrived.eraseDups.filter fun c' => decide ((keys c').projectId = project) :=
      List.filter_congr fun c' hc' => by rw [hbefore c' hc']
    rw [hfilter]
    refine List.filterMap_congr ?_
    intro c' hc'
    rw [hbefore c' (List.mem_filter.mp hc').1]
  · have hself := Function.update_self c (⟨(keys c).projectId, some n⟩ : PipelineKey) keys
    by_cases hproject : project = (keys c).projectId
    · rw [if_pos hproject, List.filter_cons_of_pos (by rw [hself]; exact decide_eq_true hproject.symm)]
      rw [List.filter_nil, List.filterMap_cons_some (by rw [hself])]
      rfl
    · have hother : ¬(keys c).projectId = project := fun heq => hproject heq.symm
      rw [if_neg hproject, List.filter_cons_of_neg (by rw [hself]; simpa using hother)]
      rfl

/-- A creation without a number takes the next one of its project. -/
theorem take (h : Booked keys start now arrived) {c : Nat} {n : Int64}
    (hnone : (keys c).iid = none)
    (hnext : now.next (.pipelines (keys c).projectId) = (.ok n, t)) :
    Booked (Function.update keys c ⟨(keys c).projectId, some n⟩) start t (arrived ++ [c]) := by
  have hcurrent := Sequences.current?_of_next hnext
  have hself := Function.update_self c (⟨(keys c).projectId, some n⟩ : PipelineKey) keys
  -- it has not been here before: it would have been given a number then
  have hc : c ∉ arrived := fun hmem => (h.refused c hmem hnone).not_next hnext
  refine ⟨?_, ?_, ?_, ?_⟩
  · intro c' hc'
    have hne : c' ≠ c := fun heq => hc' (List.mem_append_right _ (List.mem_singleton.mpr heq))
    rw [Function.update_of_ne hne]
    exact h.unknown c' fun hmem => hc' (List.mem_append_left _ hmem)
  · intro project i m hm
    rw [givenNumbers_take hc, List.getElem?_append] at hm
    split at hm
    case isTrue => exact h.consecutive project i m hm
    case isFalse hlength =>
      -- behind the numbers that have been given there is at most the new one
      by_cases hproject : project = (keys c).projectId
      · rw [if_pos hproject] at hm
        obtain ⟨hlt, hmn⟩ := List.getElem?_eq_some_iff.mp hm
        rw [List.length_singleton] at hlt
        have hvalue : m = n := by
          rw [← hmn]
          exact List.getElem_singleton hlt
        have hlast := h.lastOf_eq project
        have hnumber := (Sequences.lastOf_of_next hnext).1
        rw [← hproject] at hnumber
        rw [hvalue]
        omega
      · rw [if_neg hproject] at hm
        cases hm
  · intro project
    rw [hcurrent project, givenNumbers_take hc, List.getLast?_append]
    by_cases hproject : project = (keys c).projectId
    · rw [if_pos hproject, if_pos hproject]
      rfl
    · rw [if_neg hproject, if_neg hproject]
      exact h.last project
  · intro c' hc' hnone'
    have hne : c' ≠ c := by
      intro heq
      rw [heq, hself] at hnone'
      cases hnone'
    rw [Function.update_of_ne hne] at hnone' ⊢
    have hmem : c' ∈ arrived := by
      rcases List.mem_append.mp hc' with hmem | hmem
      · exact hmem
      · exact absurd (List.mem_singleton.mp hmem) hne
    have hbefore := h.refused c' hmem hnone'
    have hproject : (keys c').projectId ≠ (keys c).projectId := by
      intro heq
      rw [heq] at hbefore
      exact hbefore.not_next hnext
    unfold Sequences.Exhausted at hbefore ⊢
    rw [hcurrent, if_neg hproject]
    exact hbefore

end Booked

/-! ## §3. Histories. -/

namespace World

section

variable [Regex.Engine]

/-- The creation that an act takes as far as the sequences, if there is one. -/
def arriving (w : World) : Act → List Nat
  | .run c _ => if (w.creations c).arrives w.stores then [c] else []
  | _ => []

/-- The creations that have got as far as the sequences, once for each such run. -/
def arrivals (w : World) : List Act → List Nat
  | [] => []
  | a :: acts => w.arriving a ++ (w.step a).arrivals acts

/-- The number of a creation's pipeline, if it has one. -/
def numberOf (w : World) (c : Nat) : Option Int64 := (w.creations c).pipeline.iid

/-- The numbers that a project has given in a history, in the order in which its creations
first got as far as the sequences. -/
def numbersGiven (w : World) (acts : List Act) (project : ProjectId) : List Int64 :=
  givenNumbers (w.play acts).keyOf (w.arrivals acts) project

/-- A run that leaves the number of its creation as it is leaves all keys as they are. -/
theorem Sound.keyOf_of_same {w : World} (h : w.Sound) {c e : Nat}
    (hiid : (w.runOf c e).creation.pipeline.iid = (w.creations c).pipeline.iid) :
    (w.step (.run c e)).keyOf = w.keyOf := by
  obtain ⟨memo, -, hending⟩ := h.ending c e
  have hproject := (hending.precedes (h.blocks c)).pipeline.projectId
  have hkey : (w.runOf c e).creation.pipeline.key = w.keyOf c := by
    unfold Pipeline.key keyOf
    rw [hiid, hproject]
    rfl
  rw [keyOf_step_run, hkey, Function.update_eq_self]

/-- The books stay in order, whatever becomes of a run. -/
theorem Sound.booked_run {w : World} (h : w.Sound) {start : Sequences} {arrived : List Nat}
    (hbooked : Booked w.keyOf start w.stores.sequences arrived) (c e : Nat) :
    Booked (w.step (.run c e)).keyOf start (w.runOf c e).stores.sequences
      (arrived ++ w.arriving (.run c e)) := by
  obtain ⟨memo, -, hending⟩ := h.ending c e
  have hproject := (hending.precedes (h.blocks c)).pipeline.projectId
  show Booked _ _ _ (arrived ++ if (w.creations c).arrives w.stores then [c] else [])
  cases hending.allocation (h.blocks c) with
  | absent arrives iid sequences =>
      rw [h.keyOf_of_same iid, sequences, arrives, if_neg Bool.false_ne_true, List.append_nil]
      exact hbooked
  | kept n has arrives iid sequences =>
      rw [h.keyOf_of_same iid, sequences, arrives, if_pos rfl]
      exact hbooked.arrive_again has
  | refused lacks arrives exhausted iid sequences =>
      rw [h.keyOf_of_same iid, sequences, arrives, if_pos rfl]
      exact hbooked.arrive_refused lacks exhausted
  | taken n lacks arrives next iid =>
      have hkey : (w.runOf c e).creation.pipeline.key = ⟨(w.keyOf c).projectId, some n⟩ := by
        unfold Pipeline.key
        rw [iid, hproject]
        rfl
      rw [keyOf_step_run, hkey, arrives, if_pos rfl]
      exact hbooked.take lacks next

theorem Sound.booked_step {w : World} (h : w.Sound) {start : Sequences} {arrived : List Nat}
    (hbooked : Booked w.keyOf start w.stores.sequences arrived) {a : Act}
    (ha : a.keepsStores = true) :
    Booked (w.step a).keyOf start (w.step a).stores.sequences (arrived ++ w.arriving a) := by
  cases a with
  | run c e => exact h.booked_run hbooked c e
  | redefine c d =>
      rw [keyOf_step_redefine]
      show Booked _ _ _ (arrived ++ [])
      rw [List.append_nil]
      exact hbooked
  | fail faults =>
      show Booked _ _ _ (arrived ++ [])
      rw [List.append_nil]
      exact hbooked
  | exchange sequences ciRefs => cases ha

theorem Sound.booked_play {w : World} (h : w.Sound) {start : Sequences} {arrived : List Nat}
    (hbooked : Booked w.keyOf start w.stores.sequences arrived) {acts : List Act}
    (hacts : ∀ a ∈ acts, a.keepsStores = true) :
    Booked (w.play acts).keyOf start (w.play acts).stores.sequences
      (arrived ++ w.arrivals acts) := by
  induction acts generalizing w arrived with
  | nil =>
      show Booked _ _ _ (arrived ++ [])
      rw [List.append_nil]
      exact hbooked
  | cons a acts ih =>
      have hstep := h.booked_step hbooked (hacts a List.mem_cons_self)
      have hplay := ih (h.step a) hstep fun b hb => hacts b (List.mem_cons_of_mem a hb)
      rw [List.append_assoc] at hplay
      exact hplay

/-- A creation keeps its number, whatever happens. -/
theorem Sound.numberOf_step {w : World} (h : w.Sound) {c : Nat} {n : Int64}
    (hn : w.numberOf c = some n) (a : Act) : (w.step a).numberOf c = some n := by
  cases a with
  | run c' e =>
      obtain ⟨memo, -, hending⟩ := h.ending c' e
      show (Function.update w.creations c' (w.runOf c' e).creation c).pipeline.iid = some n
      by_cases hc : c = c'
      · subst hc
        rw [Function.update_self]
        exact (hending.precedes (h.blocks c)).pipeline.iid n hn
      · rw [Function.update_of_ne hc]
        exact hn
  | redefine c' d =>
      show (Function.update w.creations c' _ c).pipeline.iid = some n
      by_cases hc : c = c'
      · subst hc
        rw [Function.update_self]
        exact hn
      · rw [Function.update_of_ne hc]
        exact hn
  | fail faults => exact hn
  | exchange sequences ciRefs => exact hn

theorem Sound.numberOf_play {w : World} (h : w.Sound) {c : Nat} {n : Int64}
    (hn : w.numberOf c = some n) (acts : List Act) : (w.play acts).numberOf c = some n := by
  induction acts generalizing w with
  | nil => exact hn
  | cons a acts ih => exact ih (h.step a) (h.numberOf_step hn a)

/-- A run leaves the counters of all other projects alone. -/
theorem Sound.current?_run {w : World} (h : w.Sound) {c e : Nat} {project : ProjectId}
    (hproject : project ≠ (w.creations c).pipeline.projectId) :
    (w.runOf c e).stores.sequences.current? (.pipelines project) =
      w.stores.sequences.current? (.pipelines project) := by
  obtain ⟨memo, -, hending⟩ := h.ending c e
  cases hending.allocation (h.blocks c) with
  | absent arrives iid sequences => rw [sequences]
  | kept n has arrives iid sequences => rw [sequences]
  | refused lacks arrives exhausted iid sequences => rw [sequences]
  | taken n lacks arrives next iid =>
      rw [Sequences.current?_of_next next project, if_neg hproject]

/-- A run without a definition takes no number, nor does one that is refused it. -/
theorem Sound.unchanged_run {w : World} (h : w.Sound) {c e : Nat}
    (hidle : (w.creations c).definition = none ∨
      ∃ cause, (w.runOf c e).result = .error (.allocation cause)) :
    (w.runOf c e).stores.sequences = w.stores.sequences ∧
      (w.runOf c e).creation.pipeline.iid = w.numberOf c := by
  obtain ⟨memo, -, hending⟩ := h.ending c e
  obtain hnone | ⟨cause, hrefused⟩ := hidle
  · obtain ⟨-, hiid, hsequences⟩ | ⟨hdefined, -, -⟩ := hending.number (h.blocks c)
    · exact ⟨hsequences, hiid⟩
    · exact absurd hnone hdefined
  · obtain ⟨hcreation, hstores⟩ := hending.unchanged_of_refused hrefused
    rw [hcreation, hstores]
    exact ⟨rfl, rfl⟩

/-- Every number that is handed out in a history is accounted for. -/
structure Accounted (w : World) (acts : List Act) : Prop where
  /-- The numbers of a project go on from its last one without a gap, in the order in which
  its creations first got as far as the sequences. -/
  consecutive : ∀ (project : ProjectId) (i : Nat) (n : Int64),
    (w.numbersGiven acts project)[i]? = some n →
      n.toInt = w.stores.sequences.lastOf project + (i + 1)
  /-- The counter of a project stands at the last of them. -/
  last : ∀ project, (w.play acts).stores.sequences.current? (.pipelines project) =
    (w.numbersGiven acts project).getLast?.or
      (w.stores.sequences.current? (.pipelines project))
  /-- Nobody has a number who has not been there. -/
  unknown : ∀ c, c ∉ w.arrivals acts → (w.play acts).numberOf c = none
  /-- Whoever has been there has a number, unless there are none left. -/
  refused : ∀ c ∈ w.arrivals acts, (w.play acts).numberOf c = none →
    (w.play acts).stores.sequences.Exhausted
      (.pipelines ((w.play acts).creations c).pipeline.projectId)
  /-- A creation keeps its number, whatever happens later on. -/
  kept : ∀ c n, (w.play acts).numberOf c = some n →
    ∀ later, (w.play (acts ++ later)).numberOf c = some n
  /-- The next run leaves the counters of all other projects alone. -/
  bystanders : ∀ c e project, project ≠ ((w.play acts).creations c).pipeline.projectId →
    ((w.play acts).runOf c e).stores.sequences.current? (.pipelines project) =
      (w.play acts).stores.sequences.current? (.pipelines project)
  /-- Without a definition it takes no number, and neither does it when it is refused. -/
  idle : ∀ c e, (((w.play acts).creations c).definition = none ∨
      ∃ cause, ((w.play acts).runOf c e).result = .error (.allocation cause)) →
    ((w.play acts).runOf c e).stores.sequences = (w.play acts).stores.sequences ∧
      ((w.play acts).runOf c e).creation.pipeline.iid = (w.play acts).numberOf c

/-- **In shared sequences every number is accounted for, whatever runs and however it
ends.** -/
theorem numbers_accounted {w : World} (hexecutors : ∀ e, w.executors e = Chain.standard)
    (hblocks : ∀ c, (w.creations c).BlockSetsVars) (hunnumbered : ∀ c, w.numberOf c = none)
    {acts : List Act} (hacts : ∀ a ∈ acts, a.keepsStores = true) : w.Accounted acts := by
  have hsound := sound_of_standard hexecutors hblocks
  have hbooked := hsound.booked_play (.init hunnumbered w.stores.sequences) hacts
  have hlater := hsound.play acts
  rw [List.nil_append] at hbooked
  refine ⟨hbooked.consecutive, hbooked.last, hbooked.unknown, hbooked.refused, ?_, ?_, ?_⟩
  · intro c n hn later
    unfold play at hn ⊢
    rw [List.foldl_append]
    exact hlater.numberOf_play hn later
  · intro c e project hproject
    exact hlater.current?_run hproject
  · intro c e hidle
    exact hlater.unchanged_run hidle

end

/-- Of the three creations of the sample the last one gets its number in a run that is
aborted, and keeps it when it is run again. -/
theorem numbers_accounted_sample :
    (∀ a ∈ sampleActs, a.keepsStores = true) ∧
      sample.arrivals sampleActs = [0, 1, 2, 2] ∧
      sample.numbersGiven sampleActs ⟨1⟩ = [1, 2, 3] ∧ sample.Accounted sampleActs :=
  ⟨by decide, by decide +kernel, by decide +kernel,
    numbers_accounted (fun _ => rfl) sample_blocks (fun _ => rfl) (by decide)⟩

end World

end CiPipeline
