/-
  CiPipeline.Project.Basic
  ────────────────────────
  **Projects, sets of projects, and the refs that pipelines are built for.**

  A set of projects is its list of identifiers in increasing order, so two sets
  with the same members are equal.  Main statements: `contains_ofList` says what a
  set made from a list holds, and `ofList_of_perm` that a set is made again from its
  own members, in whatever order they stand.
-/
import CiPipeline.Json.Record

namespace CiPipeline

open Json (Codec Field Record)

/-! ## §1. Identifiers and records. -/

/-- Identifies a project. -/
structure ProjectId where
  value : Int64
  deriving DecidableEq, Repr, Inhabited

/-- The text of an identifier. -/
def ProjectId.text (p : ProjectId) : String := s!"project:{p.value.toInt}"

/-- The written form of an identifier: its number. -/
def ProjectId.codec : Codec ProjectId := Codec.int64.wrap ProjectId.mk ProjectId.value

theorem ProjectId.codec_lawful : ProjectId.codec.Lawful :=
  Codec.wrap_lawful Codec.int64_lawful fun _ => rfl

/-- A project with its path, such as `group/app`. -/
structure Project where
  id : ProjectId
  fullPath : String
  deriving DecidableEq, Repr, Inhabited

/-- The fields of a project. -/
def Project.record :=
  Record.cons (.required "id" ProjectId.codec) <|
  .cons (.required "full_path" .string) <|
  .nil

/-- The written form of a project. -/
def Project.codec : Codec Project :=
  Project.record.codec "Project" (fun (id, path, _) => ⟨id, path⟩)
    (fun p => (p.id, p.fullPath, ()))

/-- A ref that a project builds pipelines for, as it is registered: its path is
that of a branch or a tag, such as `refs/heads/main`. -/
structure CiRef where
  id : Int64
  projectId : ProjectId
  refPath : String
  deriving DecidableEq, Repr, Inhabited

/-- The fields of a registered ref. -/
def CiRef.record :=
  Record.cons (.required "id" .int64) <|
  .cons (.required "project_id" ProjectId.codec) <|
  .cons (.required "ref_path" .string) <|
  .nil

/-- The written form of a registered ref. -/
def CiRef.codec : Codec CiRef :=
  CiRef.record.codec "CiRef" (fun (id, project, path, _) => ⟨id, project, path⟩)
    (fun r => (r.id, r.projectId, r.refPath, ()))

theorem CiRef.codec_lawful : CiRef.codec.Lawful :=
  Record.codec_lawful
    ⟨Field.required_lawful Codec.int64_lawful, Field.required_lawful ProjectId.codec_lawful,
     Field.required_lawful Codec.string_lawful, trivial⟩
    (by decide) fun _ => rfl

/-! ## §2. Sets of projects. -/

/-- A set of projects, in increasing order of their numbers. -/
structure ProjectSet where
  ids : List ProjectId
  ordered : ids.Pairwise fun a b => a.value < b.value
  deriving DecidableEq

namespace ProjectSet

/-- The set without members. -/
def empty : ProjectSet := ⟨[], .nil⟩

instance : Inhabited ProjectSet := ⟨empty⟩

/-- Equal members, equal sets. -/
theorem ext {a b : ProjectSet} (h : a.ids = b.ids) : a = b := by
  cases a; cases b; cases h; rfl

/-- The project is a member. -/
def contains (s : ProjectSet) (p : ProjectId) : Bool :=
  s.ids.contains p

/-- The ordered members with one more. -/
def insertId (p : ProjectId) : List ProjectId → List ProjectId
  | [] => [p]
  | q :: rest =>
      if p.value < q.value then p :: q :: rest
      else if p = q then q :: rest
      else q :: insertId p rest

/-- The members after an insertion are those before it and the new one. -/
theorem mem_insertId {p q : ProjectId} :
    ∀ {ids : List ProjectId}, q ∈ insertId p ids ↔ q = p ∨ q ∈ ids
  | [] => by simp [insertId]
  | r :: rest => by
      unfold insertId
      split
      · simp
      · split
        case isTrue h => subst h; simp
        case isFalse => simp [@mem_insertId p q rest, or_left_comm]

/-- Of two different projects one has the smaller number. -/
theorem lt_of_not_lt_of_ne {p q : ProjectId} (h : ¬p.value < q.value) (hne : p ≠ q) :
    q.value < p.value := by
  by_cases hqp : q.value < p.value
  · exact hqp
  · exact absurd (Int64.le_antisymm (Int64.not_lt.mp hqp) (Int64.not_lt.mp h))
      fun heq => hne (by cases p; cases q; cases heq; rfl)

/-- An insertion keeps the order. -/
theorem ordered_insertId (p : ProjectId) :
    ∀ {ids : List ProjectId}, (ids.Pairwise fun a b => a.value < b.value) →
      (insertId p ids).Pairwise fun a b => a.value < b.value
  | [], _ => by simp [insertId]
  | q :: rest, h => by
      have hhead := (List.pairwise_cons.mp h).1
      unfold insertId
      split
      case isTrue hlt =>
        refine List.pairwise_cons.mpr ⟨fun r hr => ?_, h⟩
        rcases List.mem_cons.mp hr with rfl | hr
        · exact hlt
        · exact Int64.lt_trans hlt (hhead r hr)
      case isFalse hlt =>
        split
        case isTrue => exact h
        case isFalse hne =>
          refine List.pairwise_cons.mpr
            ⟨fun r hr => ?_, ordered_insertId p (List.pairwise_cons.mp h).2⟩
          rcases mem_insertId.mp hr with rfl | hr
          · exact lt_of_not_lt_of_ne hlt hne
          · exact hhead r hr

/-- The set with one more member. -/
def insert (s : ProjectSet) (p : ProjectId) : ProjectSet :=
  ⟨insertId p s.ids, ordered_insertId p s.ordered⟩

/-- The set of the members of a list. -/
def ofList (ids : List ProjectId) : ProjectSet :=
  ids.foldl insert empty

private theorem mem_foldl_insert (p : ProjectId) :
    ∀ (ids : List ProjectId) (s : ProjectSet),
      p ∈ (ids.foldl insert s).ids ↔ p ∈ s.ids ∨ p ∈ ids
  | [], s => by simp
  | q :: ids, s => by
      rw [List.foldl_cons, mem_foldl_insert p ids (s.insert q)]
      simp [insert, mem_insertId, or_assoc, or_left_comm]

/-- **The set of a list holds the members of the list.** -/
theorem contains_ofList (ids : List ProjectId) (p : ProjectId) :
    (ofList ids).contains p = ids.contains p := by
  rw [Bool.eq_iff_iff]
  simp [contains, ofList, mem_foldl_insert, empty]

/-- Two sets are equal if they hold the same projects. -/
theorem ext_contains {a b : ProjectSet} (h : ∀ p, a.contains p = b.contains p) : a = b := by
  have hnodup (s : ProjectSet) : s.ids.Nodup :=
    List.nodup_iff_pairwise_ne.mpr <| s.ordered.imp fun {p q} hlt heq => by
      rw [heq] at hlt
      exact Int64.lt_irrefl hlt
  have hperm : a.ids.Perm b.ids := by
    refine (List.perm_ext_iff_of_nodup (hnodup a) (hnodup b)).mpr fun p => ?_
    rw [← List.contains_iff_mem, ← List.contains_iff_mem]
    exact Bool.eq_iff_iff.mp (h p)
  refine ext (hperm.eq_of_pairwise (fun p q _ _ hpq hqp => ?_) a.ordered b.ordered)
  exact absurd (Int64.lt_trans hpq hqp) Int64.lt_irrefl

/-- **A set is made from its own members in any order.** -/
theorem ofList_of_perm {ids : List ProjectId} {s : ProjectSet} (h : ids.Perm s.ids) :
    ofList ids = s := by
  refine ext_contains fun p => ?_
  rw [contains_ofList, contains, Bool.eq_iff_iff, List.contains_iff_mem, List.contains_iff_mem]
  exact h.mem_iff

/-- The written form of a set: its members in increasing order, read in any. -/
def codec : Codec ProjectSet := ProjectId.codec.list.wrap ofList ids

theorem codec_reads {ids : List ProjectId} {s : ProjectSet} (h : ids.Perm s.ids) :
    codec.Reads (ProjectId.codec.list.encode ids) s := fun k hk => by
  have hids := Codec.list_lawful ProjectId.codec_lawful ids k hk
  simp [codec, Codec.wrap, hids, Except.map, ofList_of_perm h]

theorem codec_lawful : codec.Lawful := fun s => codec_reads (.refl s.ids)

end ProjectSet

end CiPipeline
