/-
  CiPipeline.Proofs.Graph.Needs
  ─────────────────────────────
  **Which needs hold, and which are reported.**

  What is known of a name is read off the jobs that the survey has placed, since no
  two of them have one name.  Each need of a job is then settled by what is known of
  the name: it is reported, dropped or kept, and of the kept ones of one name only
  the first stands.
-/
import CiPipeline.Graph.Needs
import CiPipeline.Proofs.Graph.Survey

namespace CiPipeline.Graph

/-! ## §1. What is known of a name. -/

/-- Where keys are distinct, a search for a key finds the element that has it. -/
theorem find?_of_nodup {α : Type} {key : α → String} :
    ∀ {l : List α} {a : α}, (l.map key).Nodup → a ∈ l → l.find? (key · = key a) = some a := by
  intro l a
  induction l with
  | nil => intro _ ha; cases ha
  | cons b l ih =>
      intro hnodup ha
      rw [List.map_cons, List.nodup_cons] at hnodup
      rcases List.mem_cons.mp ha with rfl | ha
      · simp
      · -- the key stands behind the head, so the head has another one
        have hne : ¬key b = key a := fun heq => hnodup.1 (heq ▸ List.mem_map_of_mem ha)
        rw [List.find?_cons_of_neg (by simpa using hne)]
        exact ih hnodup.2 ha

namespace Survey

variable {refName : String} {s : Survey}

theorem standing_eq_undeclared_iff (s : Survey) (name : String) :
    s.standing name = .undeclared ↔ ∀ p ∈ s.jobs, p.job.name ≠ name := by
  unfold standing
  cases hfind : s.jobs.find? (·.job.name = name) with
  | none => simpa using hfind
  | some p =>
      have hp : p ∈ s.jobs := List.mem_of_find?_eq_some hfind
      have hname : p.job.name = name := by simpa using List.find?_some hfind
      refine ⟨fun h => ?_, fun h => absurd hname (h p hp)⟩
      dsimp only at h
      split at h <;> cases h

/-- A name that stands for something is that of a placed job. -/
theorem exists_of_standing (s : Survey) {name : String} (h : s.standing name ≠ .undeclared) :
    ∃ p ∈ s.jobs, p.job.name = name := by
  by_contra hnone
  refine h ((standing_eq_undeclared_iff s name).mpr ?_)
  intro p hp hname
  exact hnone ⟨p, hp, hname⟩

variable [Regex.Engine]

/-- A name that a placed job has stands for that job. -/
theorem standing_of_mem (h : Sound refName s) {p : PlacedJob} (hp : p ∈ s.jobs) :
    s.standing p.job.name = if p.verdict = .excluded then .excluded else .present := by
  unfold standing
  rw [find?_of_nodup h.jobs_nodup hp]

theorem standing_eq_present_iff (h : Sound refName s) (name : String) :
    s.standing name = .present ↔ ∃ p ∈ s.jobs, p.job.name = name ∧ p.verdict ≠ .excluded := by
  constructor
  · intro hstanding
    obtain ⟨p, hp, rfl⟩ := exists_of_standing s (by rw [hstanding]; nofun)
    refine ⟨p, hp, rfl, fun hexcluded => ?_⟩
    rw [standing_of_mem h hp, if_pos hexcluded] at hstanding
    cases hstanding
  · intro h
    obtain ⟨p, hp, rfl, hverdict⟩ := h
    rw [standing_of_mem h hp, if_neg hverdict]

theorem standing_eq_excluded_iff (h : Sound refName s) (name : String) :
    s.standing name = .excluded ↔ ∃ p ∈ s.jobs, p.job.name = name ∧ p.verdict = .excluded := by
  constructor
  · intro hstanding
    obtain ⟨p, hp, rfl⟩ := exists_of_standing s (by rw [hstanding]; nofun)
    refine ⟨p, hp, rfl, ?_⟩
    by_contra hverdict
    rw [standing_of_mem h hp, if_neg hverdict] at hstanding
    cases hstanding
  · intro h
    obtain ⟨p, hp, rfl, hverdict⟩ := h
    rw [standing_of_mem h hp, if_pos hverdict]

end Survey

/-! ## §2. The needs of a job. -/

namespace ResolvedNeeds

variable {standing : String → Standing} {job : String}

/-- What is reported of a need. -/
def problemsOf (standing : String → Standing) (job : String) (n : Need) : List Problem :=
  match standing n.job with
  | .undeclared => [.undefinedNeed job n.job]
  | .excluded => if n.optional then [] else [.excludedNeed job n.job]
  | .present => []

theorem problemsOf_eq_nil_iff (n : Need) :
    problemsOf standing job n = [] ↔
      standing n.job ≠ .undeclared ∧ (standing n.job = .excluded → n.optional = true) := by
  unfold problemsOf
  cases standing n.job <;> simp

theorem add_problems (r : ResolvedNeeds) (n : Need) :
    (add standing job r n).problems = r.problems ++ problemsOf standing job n := by
  unfold add problemsOf
  cases standing n.job with
  | undeclared => rfl
  | excluded => cases n.optional <;> simp
  | present => dsimp only; split <;> simp

/-- The needs are reported one after the other. -/
theorem foldl_add_problems (needs : List Need) :
    ∀ r : ResolvedNeeds, (needs.foldl (add standing job) r).problems =
      r.problems ++ needs.flatMap (problemsOf standing job) := by
  induction needs with
  | nil => intro r; simp
  | cons n needs ih =>
      intro r
      rw [List.foldl_cons, ih, add_problems, List.flatMap_cons, List.append_assoc]

/-- A need is kept if the job that it names is present and not needed yet. -/
theorem add_needs (r : ResolvedNeeds) (n : Need) :
    (add standing job r n).needs =
      if standing n.job = .present ∧ n.job ∉ r.needs.map (·.job) then
        r.needs ++ [⟨n.job, n.artifacts⟩]
      else r.needs := by
  unfold add
  cases hstanding : standing n.job with
  | undeclared => simp
  | excluded => cases n.optional <;> simp
  | present =>
      by_cases hmem : n.job ∈ r.needs.map (·.job)
      · obtain ⟨e, he, heq⟩ := List.mem_map.mp hmem
        have hany : r.needs.any (·.job = n.job) = true :=
          List.any_eq_true.mpr ⟨e, he, by simpa using heq⟩
        simp [hany, hmem]
      · have hany : ¬r.needs.any (·.job = n.job) = true := by
          intro h
          obtain ⟨e, he, heq⟩ := List.any_eq_true.mp h
          exact hmem (List.mem_map.mpr ⟨e, he, by simpa using heq⟩)
        dsimp only
        rw [if_neg hany, if_pos ⟨rfl, hmem⟩]

theorem foldl_add_nodup (needs : List Need) :
    ∀ r : ResolvedNeeds, (r.needs.map (·.job)).Nodup →
      ((needs.foldl (add standing job) r).needs.map (·.job)).Nodup := by
  induction needs with
  | nil => intro r h; exact h
  | cons n needs ih =>
      intro r h
      refine ih _ ?_
      rw [add_needs]
      split
      case isTrue hadd =>
        refine (nodup_map_concat _ r.needs _).mpr ⟨?_, h⟩
        intro e he heq
        exact hadd.2 (List.mem_map.mpr ⟨e, he, heq⟩)
      case isFalse => exact h

theorem mem_foldl_add (needs : List Need) (name : String) :
    ∀ r : ResolvedNeeds, name ∈ (needs.foldl (add standing job) r).needs.map (·.job) ↔
      name ∈ r.needs.map (·.job) ∨ standing name = .present ∧ ∃ n ∈ needs, n.job = name := by
  induction needs with
  | nil => intro r; simp
  | cons n needs ih =>
      intro r
      rw [List.foldl_cons, ih, add_needs]
      -- a need of another name settles nothing about this one
      by_cases hname : n.job = name
      · subst hname
        by_cases hpresent : standing n.job = .present
        · by_cases hmem : n.job ∈ r.needs.map (·.job) <;> simp [hpresent, hmem]
        · simp [hpresent]
      · split <;> simp [hname, Ne.symm hname]

/-- **Nothing is reported of the needs of a job exactly if there are no more than the
limit and each names a declared job, which only an optional one finds excluded.** -/
theorem of_problems_eq_nil_iff (standing : String → Standing) (maxNeeds : UInt64)
    (job : JobDefinition) :
    (of standing maxNeeds job).problems = [] ↔ job.needs.length ≤ maxNeeds.toNat ∧
      ∀ n ∈ job.needs,
        standing n.job ≠ .undeclared ∧ (standing n.job = .excluded → n.optional = true) := by
  unfold of
  by_cases hlimit : maxNeeds.toNat < job.needs.length
  · rw [if_pos hlimit]
    refine ⟨fun h => by simp at h, fun h => ?_⟩
    omega
  · rw [if_neg hlimit, foldl_add_problems]
    simp only [List.nil_append, List.flatMap_eq_nil_iff, problemsOf_eq_nil_iff]
    exact ⟨fun h => ⟨by omega, h⟩, fun h => h.2⟩

/-- No job is needed twice. -/
theorem of_needs_nodup (standing : String → Standing) (maxNeeds : UInt64) (job : JobDefinition) :
    ((of standing maxNeeds job).needs.map (·.job)).Nodup := by
  unfold of
  split
  · exact List.nodup_nil
  · exact foldl_add_nodup job.needs ⟨[], []⟩ List.nodup_nil

/-- A need is kept once at most. -/
theorem length_add_needs_le (r : ResolvedNeeds) (n : Need) :
    (add standing job r n).needs.length ≤ r.needs.length + 1 := by
  rw [add_needs]
  split
  case isTrue =>
      rw [List.length_append]
      exact Nat.le_refl _
  case isFalse => exact Nat.le_succ _

theorem length_foldl_add_le (needs : List Need) :
    ∀ r : ResolvedNeeds,
      (needs.foldl (add standing job) r).needs.length ≤ r.needs.length + needs.length := by
  induction needs with
  | nil => intro r; exact Nat.le_refl _
  | cons n needs ih =>
      intro r
      have hstep : (add standing job r n).needs.length ≤ r.needs.length + 1 :=
        length_add_needs_le r n
      have hrest := ih (add standing job r n)
      rw [List.foldl_cons, List.length_cons]
      omega

/-- **No job has more needs than the limit**, for a job that declares more of them has
none at all. -/
theorem length_of_needs_le (standing : String → Standing) (maxNeeds : UInt64)
    (job : JobDefinition) : (of standing maxNeeds job).needs.length ≤ maxNeeds.toNat := by
  unfold of
  by_cases hlimit : maxNeeds.toNat < job.needs.length
  · rw [if_pos hlimit]
    exact Nat.zero_le _
  · rw [if_neg hlimit]
    have hkept : (job.needs.foldl (add standing job.name) ⟨[], []⟩).needs.length ≤
        0 + job.needs.length := length_foldl_add_le job.needs ⟨[], []⟩
    omega

/-- **A job is needed exactly if it is present and one of at most as many needs as
the limit names it.** -/
theorem mem_of_needs_iff (standing : String → Standing) (maxNeeds : UInt64) (job : JobDefinition)
    (name : String) :
    name ∈ (of standing maxNeeds job).needs.map (·.job) ↔
      job.needs.length ≤ maxNeeds.toNat ∧ standing name = .present ∧
        ∃ n ∈ job.needs, n.job = name := by
  unfold of
  by_cases hlimit : maxNeeds.toNat < job.needs.length
  · rw [if_pos hlimit]
    refine ⟨fun h => by simp at h, fun h => ?_⟩
    omega
  · rw [if_neg hlimit, mem_foldl_add]
    simp only [List.map_nil, List.not_mem_nil, false_or]
    exact ⟨fun h => ⟨by omega, h⟩, fun h => h.2⟩

end ResolvedNeeds

end CiPipeline.Graph
