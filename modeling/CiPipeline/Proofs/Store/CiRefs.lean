/-
  CiPipeline.Proofs.Store.CiRefs
  ──────────────────────────────
  **Each path of a project has one number, and each number one path.**

  A registry answers a request with the record of the path, and makes the record if there
  is none (`CiRefs.register_cases`).  Its records are numbered from one on, no two have one
  path, and the paths are those that have been asked for (`CiRefs.Sound`); a record
  that has been found is found ever after.  Since the paths of branches and tags are never
  the same (`Pipeline.refPath_eq_iff`), two pipelines share a number exactly if they
  run for one ref of one project.  Main statement: `RefHistory.refs_identified`.
-/
import CiPipeline.Proofs.Creation.Frame
import CiPipeline.Proofs.Store.Persisting
import Mathlib.Data.List.Dedup
import Mathlib.Data.List.Induction

namespace CiPipeline

/-! ## §1. Paths of refs. -/

/-- A path of a tag is never one of a branch, whatever the names are. -/
theorem tagPath_ne_branchPath (tag branch : String) :
    "refs/tags/" ++ tag ≠ "refs/heads/" ++ branch := by
  intro h
  have hchars := congrArg String.toList h
  rw [String.toList_append, String.toList_append] at hchars
  -- behind `refs/` one goes on with a `t` and the other one with an `h`
  simp at hchars

/-- **Two pipelines have one path exactly if both are for a tag or both for a branch, of
one name.** -/
theorem Pipeline.refPath_eq_iff (p q : Pipeline) :
    p.refPath = q.refPath ↔ p.tag = q.tag ∧ p.refName = q.refName := by
  unfold refPath
  cases hp : p.tag with
  | true =>
      cases hq : q.tag with
      | true => simp
      | false =>
          refine ⟨fun h => absurd h (tagPath_ne_branchPath _ _), ?_⟩
          intro h
          cases h.1
  | false =>
      cases hq : q.tag with
      | true =>
          refine ⟨fun h => absurd h.symm (tagPath_ne_branchPath _ _), ?_⟩
          intro h
          cases h.1
      | false => simp

/-! ## §2. One request. -/

/-- What a record is found by. -/
def CiRef.key (c : CiRef) : ProjectId × String := (c.projectId, c.refPath)

namespace CiRefs

variable {r : CiRefs} {k : ProjectId × String}

/-- The record that the next path gets. -/
def fresh (r : CiRefs) (k : ProjectId × String) : CiRef := ⟨Int64.ofNat (r.size + 1), k.1, k.2⟩

/-- What is found for a path has the path. -/
theorem key_of_find? {c : CiRef} (h : r.find? k.1 k.2 = some c) : c ∈ r.refs ∧ c.key = k := by
  unfold find? at h
  have hfound := List.find?_some h
  simp only [Bool.and_eq_true, decide_eq_true_eq] at hfound
  exact ⟨List.mem_of_find?_eq_some h, Prod.ext hfound.1 hfound.2⟩

/-- Nothing is found for a path exactly if no record has it. -/
theorem find?_eq_none_iff : r.find? k.1 k.2 = none ↔ k ∉ r.refs.map (·.key) := by
  unfold find?
  rw [List.find?_eq_none, List.mem_map]
  constructor
  · intro h hmem
    obtain ⟨c, hc, rfl⟩ := hmem
    exact h c hc (by simp [CiRef.key])
  · intro h c hc hkey
    simp only [Bool.and_eq_true, decide_eq_true_eq] at hkey
    exact h ⟨c, hc, Prod.ext hkey.1 hkey.2⟩

/-- A request finds the record of the path, or makes it. -/
theorem register_cases (r : CiRefs) (k : ProjectId × String) :
    (∃ c, r.find? k.1 k.2 = some c ∧ r.register k.1 k.2 = (c, r)) ∨
    (r.find? k.1 k.2 = none ∧ r.register k.1 k.2 = (r.fresh k, ⟨r.refs ++ [r.fresh k]⟩)) := by
  unfold register
  cases hfind : r.find? k.1 k.2 with
  | some c => exact .inl ⟨c, rfl, rfl⟩
  | none => exact .inr ⟨rfl, rfl⟩

/-- A record that is found is found after any request. -/
theorem find?_register_of_some {c : CiRef} (h : r.find? k.1 k.2 = some c)
    (k' : ProjectId × String) : (r.register k'.1 k'.2).2.find? k.1 k.2 = some c := by
  obtain ⟨c', -, hreg⟩ | ⟨-, hreg⟩ := register_cases r k'
  · rw [hreg]
    exact h
  · rw [hreg]
    unfold find? at h ⊢
    rw [List.find?_append, h]
    rfl

/-- What a request answers is what is found from then on. -/
theorem find?_register (r : CiRefs) (k : ProjectId × String) :
    (r.register k.1 k.2).2.find? k.1 k.2 = some (r.register k.1 k.2).1 := by
  obtain ⟨c, hfind, hreg⟩ | ⟨hfind, hreg⟩ := register_cases r k
  · rw [hreg]
    exact hfind
  · rw [hreg]
    unfold find? at hfind ⊢
    rw [List.find?_append, hfind]
    simp [fresh]

/-! ## §3. What a registry holds. -/

/-- The records are numbered from one on, and have the paths that have been asked for, each
path once. -/
structure Sound (asked : List (ProjectId × String)) (r : CiRefs) : Prop where
  numbered : r.refs.map (·.id) = (List.range' 1 r.size).map Int64.ofNat
  nodup : (r.refs.map (·.key)).Nodup
  mem_iff : ∀ k, k ∈ r.refs.map (·.key) ↔ k ∈ asked

theorem sound_empty : Sound [] empty := ⟨rfl, List.nodup_nil, fun _ => Iff.rfl⟩

/-- One more request keeps what holds of a registry. -/
theorem Sound.register {asked : List (ProjectId × String)} (h : Sound asked r)
    (k : ProjectId × String) : Sound (asked ++ [k]) (r.register k.1 k.2).2 := by
  obtain ⟨c, hfind, hreg⟩ | ⟨hfind, hreg⟩ := register_cases r k
  · -- the path has been asked for before
    rw [hreg]
    obtain ⟨hc, rfl⟩ := key_of_find? hfind
    refine ⟨h.numbered, h.nodup, ?_⟩
    intro k'
    rw [h.mem_iff, List.mem_append, List.mem_singleton]
    constructor
    · intro hk'
      exact .inl hk'
    · rintro (hk' | rfl)
      · exact hk'
      · exact (h.mem_iff _).mp (List.mem_map_of_mem hc)
  · -- a record is appended, under the next number and for a path that none has had
    have hnew : k ∉ r.refs.map (·.key) := find?_eq_none_iff.mp hfind
    rw [hreg]
    refine ⟨?_, ?_, ?_⟩
    · show (r.refs ++ [r.fresh k]).map (·.id) =
        (List.range' 1 (r.refs ++ [r.fresh k]).length).map Int64.ofNat
      rw [List.map_append, h.numbered, List.length_append, List.length_singleton,
        List.range'_1_concat, List.map_append]
      simp [fresh, size, Nat.add_comm]
    · show ((r.refs ++ [r.fresh k]).map (·.key)).Nodup
      rw [List.map_append, List.nodup_append]
      refine ⟨h.nodup, List.nodup_singleton _, ?_⟩
      intro a ha b hb hab
      rw [List.map_singleton, List.mem_singleton] at hb
      have hak : a = k := hab.trans hb
      exact hnew (hak ▸ ha)
    · intro k'
      show k' ∈ (r.refs ++ [r.fresh k]).map (·.key) ↔ _
      rw [List.map_append, List.mem_append, h.mem_iff, List.mem_append]
      rfl

/-- There are as many records as paths that have been asked for. -/
theorem Sound.size_eq {asked : List (ProjectId × String)} (h : Sound asked r) :
    r.size = asked.dedup.length := by
  -- two lists without repetitions that have the same members
  have hperm : (r.refs.map (·.key)).Perm asked.dedup := by
    rw [List.perm_ext_iff_of_nodup h.nodup (List.nodup_dedup asked)]
    intro k
    rw [h.mem_iff, List.mem_dedup]
  have hlength := hperm.length_eq
  rw [List.length_map] at hlength
  exact hlength

/-- Two records of one number are the same, as long as the numbers have not come to their
end. -/
theorem Sound.eq_of_id {asked : List (ProjectId × String)} (h : Sound asked r)
    (hsize : r.size < 2 ^ 63) {c d : CiRef} (hc : c ∈ r.refs) (hd : d ∈ r.refs)
    (hid : c.id = d.id) : c = d := by
  -- no number is met twice among those that are counted up to the size
  have hnodup : (r.refs.map (·.id)).Nodup := by
    rw [h.numbered]
    refine List.Nodup.map_on ?_ List.nodup_range'
    intro a ha b hb heq
    have ha := List.mem_range'_1.mp ha
    have hb := List.mem_range'_1.mp hb
    exact Repository.ofNat_inj (by omega) (by omega) heq
  exact List.inj_on_of_nodup_map hnodup hc hd hid

end CiRefs

/-! ## §4. Sequences of requests. -/

/-- A request for the record of a ref: for a pipeline, or for a path. -/
inductive RefRequest where
  | ofPipeline (p : Pipeline)
  | ofPath (project : ProjectId) (path : String)

/-- What a request is answered, and the pipeline that it was made for. -/
structure RefAnswer where
  result : Except StoreError CiRef
  pipeline : Option Pipeline

namespace RefRequest

/-- The path that a request asks for. -/
def key : RefRequest → ProjectId × String
  | .ofPipeline p => (p.projectId, p.refPath)
  | .ofPath project path => (project, path)

/-- A request is for a path, or for a pipeline that has no record yet. -/
def Asks : RefRequest → Prop
  | .ofPipeline p => p.ciRef = none
  | .ofPath _ _ => True

/-- Makes a request. -/
def make (s : Stores) : RefRequest → RefAnswer × Stores
  | .ofPipeline p => (⟨(p.register s).result, some (p.register s).pipeline⟩, (p.register s).stores)
  | .ofPath project path =>
      (⟨(s.register project path).1, none⟩, (s.register project path).2)

/-- The pipeline of a request, when it has got a record. -/
def attached (c : CiRef) : RefRequest → Option Pipeline
  | .ofPipeline p => some { p with ciRef := some c }
  | .ofPath _ _ => none

/-- A working registry answers every request, and a pipeline gets the record. -/
theorem make_eq {s : Stores} (hworks : s.faults.ciRefs = false) {q : RefRequest} (hq : q.Asks) :
    q.make s =
      (⟨.ok (s.ciRefs.register q.key.1 q.key.2).1,
          q.attached (s.ciRefs.register q.key.1 q.key.2).1⟩,
        { s with ciRefs := (s.ciRefs.register q.key.1 q.key.2).2 }) := by
  cases q with
  | ofPath project path =>
      simp only [make, Stores.register, hworks]
      rfl
  | ofPipeline p =>
      have hnone : p.ciRef = none := hq
      simp only [make, Pipeline.register, Stores.register, hnone, hworks]
      rfl

end RefRequest

/-- Requests with their answers so far, and the stores after them. -/
structure RefHistory where
  answers : List (RefRequest × RefAnswer)
  stores : Stores

namespace RefHistory

/-- Makes the next request. -/
def next (h : RefHistory) (q : RefRequest) : RefHistory :=
  ⟨h.answers ++ [(q, (q.make h.stores).1)], (q.make h.stores).2⟩

/-- The history of requests, from stores on. -/
def of (s : Stores) (requests : List RefRequest) : RefHistory := requests.foldl next ⟨[], s⟩

theorem of_concat (s : Stores) (requests : List RefRequest) (q : RefRequest) :
    of s (requests ++ [q]) = (of s requests).next q := by
  unfold of
  rw [List.foldl_append]
  rfl

/-- A request has been answered with a record that is found for its path, and its pipeline
has got that record. -/
def Answered (refs : CiRefs) (a : RefRequest × RefAnswer) : Prop :=
  ∃ c, a.2.result = .ok c ∧ a.2.pipeline = a.1.attached c ∧
    refs.find? a.1.key.1 a.1.key.2 = some c

/-- What holds after any requests: the registry works and is sound for the paths asked for,
and all requests have been answered. -/
structure Sound (requests : List RefRequest) (h : RefHistory) : Prop where
  works : h.stores.faults.ciRefs = false
  complete : h.answers.map (·.1) = requests
  registry : h.stores.ciRefs.Sound (requests.map (·.key))
  answered : ∀ a ∈ h.answers, Answered h.stores.ciRefs a

/-- One more request keeps what holds after any. -/
theorem Sound.next {requests : List RefRequest} {h : RefHistory} (hs : Sound requests h)
    {q : RefRequest} (hq : q.Asks) : Sound (requests ++ [q]) (h.next q) := by
  unfold RefHistory.next
  rw [q.make_eq hs.works hq]
  refine ⟨hs.works, ?_, ?_, ?_⟩
  · rw [List.map_append, hs.complete]
    rfl
  · rw [List.map_append]
    exact hs.registry.register q.key
  · intro a ha
    rcases List.mem_append.mp ha with ha | ha
    · -- what was found before is found still
      obtain ⟨c, hresult, hpipeline, hfind⟩ := hs.answered a ha
      exact ⟨c, hresult, hpipeline, CiRefs.find?_register_of_some hfind q.key⟩
    · rw [List.mem_singleton.mp ha]
      exact ⟨_, rfl, rfl, CiRefs.find?_register h.stores.ciRefs q.key⟩

/-- All requests to a registry that works and is empty at first are answered. -/
theorem sound_of {s : Stores} (hworks : s.faults.ciRefs = false) (hempty : s.ciRefs = .empty)
    (requests : List RefRequest) (hasks : ∀ q ∈ requests, q.Asks) :
    Sound requests (of s requests) := by
  induction requests using List.reverseRecOn with
  | nil =>
      refine ⟨hworks, rfl, ?_, fun a ha => absurd ha List.not_mem_nil⟩
      show s.ciRefs.Sound []
      rw [hempty]
      exact CiRefs.sound_empty
  | append_singleton requests q ih =>
      rw [of_concat]
      have hbefore := ih fun q' hq' => hasks q' (List.mem_append_left _ hq')
      exact hbefore.next (hasks q (List.mem_append_right _ (List.mem_singleton.mpr rfl)))

/-! ## §5. Identity. -/

/-- Requests are told apart by their records as they are by their paths. -/
structure Identified (requests : List RefRequest) (h : RefHistory) : Prop where
  /-- Every request has been answered with a record. -/
  answered : h.answers.map (·.1) = requests ∧
    ∀ a ∈ h.answers, ∃ c, a.2.result = .ok c ∧ a.2.pipeline = a.1.attached c
  /-- A record carries what it has been asked for with. -/
  carries : ∀ a ∈ h.answers, ∀ c, a.2.result = .ok c → (c.projectId, c.refPath) = a.1.key
  /-- Two pipelines have one number exactly if they run for one ref of one project. -/
  same_id : ∀ p p' b b' c c', (.ofPipeline p, b) ∈ h.answers → (.ofPipeline p', b') ∈ h.answers →
    b.result = .ok c → b'.result = .ok c' →
      (c.id = c'.id ↔ p.projectId = p'.projectId ∧ p.tag = p'.tag ∧ p.refName = p'.refName)
  /-- What has been answered for a path at any time is what is found in the end, so no later
  answer for it is another one. -/
  stable : ∀ a ∈ h.answers, ∀ c, a.2.result = .ok c →
    h.stores.ciRefs.find? a.1.key.1 a.1.key.2 = some c
  /-- The numbers in use count from one up to the size. -/
  numbers : h.stores.ciRefs.refs.map (·.id.toInt) =
    (List.range' 1 h.stores.ciRefs.size).map Int.ofNat
  /-- There are as many records as paths that have been asked for. -/
  size : h.stores.ciRefs.size = (requests.map (·.key)).dedup.length

/-- In a registry whose numbers have not come to their end, numbers count as integers do. -/
theorem numbers_of_numbered {r : CiRefs}
    (h : r.refs.map (·.id) = (List.range' 1 r.size).map Int64.ofNat) (hsize : r.size < 2 ^ 63) :
    r.refs.map (·.id.toInt) = (List.range' 1 r.size).map Int.ofNat := by
  have hmap : r.refs.map (·.id.toInt) = (r.refs.map (·.id)).map Int64.toInt := by
    rw [List.map_map]
    rfl
  rw [hmap, h, List.map_map]
  refine List.map_congr_left ?_
  intro n hn
  have hn := List.mem_range'_1.mp hn
  exact Int64.toInt_ofNat_of_lt (by omega)

/-- Two answers have one number exactly if they are for one path. -/
theorem Answered.id_eq_iff {asked : List (ProjectId × String)} {r : CiRefs}
    (hsound : r.Sound asked) (hsize : r.size < 2 ^ 63) {a a' : RefRequest × RefAnswer}
    {c c' : CiRef}
    (ha : Answered r a) (ha' : Answered r a') (hc : a.2.result = .ok c)
    (hc' : a'.2.result = .ok c') : c.id = c'.id ↔ a.1.key = a'.1.key := by
  obtain ⟨d, hresult, -, hfind⟩ := ha
  obtain ⟨d', hresult', -, hfind'⟩ := ha'
  rw [hc] at hresult
  rw [hc'] at hresult'
  cases hresult
  cases hresult'
  obtain ⟨hmem, hkey⟩ := CiRefs.key_of_find? hfind
  obtain ⟨hmem', hkey'⟩ := CiRefs.key_of_find? hfind'
  constructor
  · -- one number is one record, and that has one path
    intro hid
    rw [← hkey, ← hkey', hsound.eq_of_id hsize hmem hmem' hid]
  · intro hsame
    rw [hsame, hfind'] at hfind
    rw [Option.some.inj hfind]

/-- **Along any requests to one registry, records are told apart exactly as refs are, never
change, and are numbered from one on.**  Beyond that, a pipeline that has its record keeps it
and asks for nothing, and a registry that fails changes nothing. -/
theorem refs_identified {s : Stores} (hworks : s.faults.ciRefs = false)
    (hempty : s.ciRefs = .empty) (requests : List RefRequest) (hasks : ∀ q ∈ requests, q.Asks)
    (hcount : (requests.map (·.key)).dedup.length < 2 ^ 63) :
    Identified requests (of s requests) ∧
      (∀ (p : Pipeline) (t : Stores) (c : CiRef), p.ciRef = some c →
        p.register t = ⟨.ok c, p, t, []⟩) ∧
      (∀ (p : Pipeline) (t : Stores), t.faults.ciRefs = true → p.ciRef = none →
        ∃ e, p.register t = ⟨.error e, p, t, []⟩) := by
  have hs := sound_of hworks hempty requests hasks
  have hsize : (of s requests).stores.ciRefs.size < 2 ^ 63 := by
    rw [hs.registry.size_eq]
    exact hcount
  refine ⟨⟨⟨hs.complete, ?_⟩, ?_, ?_, ?_, ?_, hs.registry.size_eq⟩, ?_, ?_⟩
  · intro a ha
    obtain ⟨c, hresult, hpipeline, -⟩ := hs.answered a ha
    exact ⟨c, hresult, hpipeline⟩
  · intro a ha c hc
    obtain ⟨d, hresult, -, hfind⟩ := hs.answered a ha
    rw [hc] at hresult
    cases hresult
    exact (CiRefs.key_of_find? hfind).2
  · intro p p' b b' c c' hb hb' hc hc'
    rw [Answered.id_eq_iff hs.registry hsize (hs.answered _ hb) (hs.answered _ hb') hc hc']
    show (p.projectId, p.refPath) = (p'.projectId, p'.refPath) ↔ _
    rw [Prod.mk.injEq, Pipeline.refPath_eq_iff]
  · intro a ha c hc
    obtain ⟨d, hresult, -, hfind⟩ := hs.answered a ha
    rw [hc] at hresult
    cases hresult
    exact hfind
  · exact numbers_of_numbered hs.registry.numbered hsize
  · intro p t c hc
    exact Pipeline.register_of_ciRef hc t
  · intro p t hfault hnone
    refine ⟨.backend "ci ref backend unavailable", ?_⟩
    unfold Pipeline.register Stores.register
    rw [hnone, hfault]
    rfl

/-- A branch and a tag of one name, a branch whose name begins like a path, the branch of
another project, and the path of the first branch once more. -/
def sampleRequests : List RefRequest :=
  [.ofPipeline (.of ⟨1⟩ "x" default),
   .ofPipeline { Pipeline.of ⟨1⟩ "x" default with tag := true },
   .ofPipeline (.of ⟨1⟩ "heads/x" default),
   .ofPipeline (.of ⟨2⟩ "x" default),
   .ofPath ⟨1⟩ "refs/heads/x"]

/-- Five requests to an empty registry, of which two are for one path. -/
theorem refs_identified_sample :
    (∀ q ∈ sampleRequests, q.Asks) ∧ (sampleRequests.map (·.key)).dedup.length = 4 ∧
      Identified sampleRequests (of .empty sampleRequests) := by
  have hasks : ∀ q ∈ sampleRequests, q.Asks := by
    intro q hq
    simp only [sampleRequests, List.mem_cons, List.not_mem_nil, or_false] at hq
    rcases hq with rfl | rfl | rfl | rfl | rfl <;> first | rfl | trivial
  have hcount : (sampleRequests.map (·.key)).dedup.length = 4 := by decide +kernel
  exact ⟨hasks, hcount, (refs_identified rfl rfl sampleRequests hasks (by omega)).1⟩

end RefHistory

end CiPipeline
