/-
  CiPipeline.Proofs.Store.Persisting
  ──────────────────────────────────
  **A record is persisted in one piece or not at all.**

  Persisting a record begins a transaction, stages the record and commits it.  A
  repository that works takes the record under the next number
  (`persist_of_healthy`).  Each fault stops the attempt at a call of its own, and
  none of them lets a part of it become visible (`persist_of_fault`); a commit that
  is refused has used up a number all the same.  The first refusal does not depend on
  the record (`refusal?_eq`).
-/
import CiPipeline.Creation.Persistence
import Mathlib.Algebra.Group.Nat.Defs

namespace CiPipeline

/-! ## §1. Where each fault stops the attempt. -/

namespace RepositoryFault

/-- What the repository answers to an attempt to persist a record. -/
@[simp] def refusal : RepositoryFault → StoreError
  | .beginRefused => .backend "begin refused"
  | .insertRefused => .backend "insert refused"
  | .insertAndRollbackRefused => .backend "insert refused"
  | .commitRefused => .backend "commit refused"
  | .closed => .transactionClosed

/-- The calls that are made until the attempt is given up. -/
@[simp] def attempted : RepositoryFault → List RepositoryCall
  | .beginRefused => [.begin]
  | .insertRefused => [.begin, .insert, .rollback]
  | .insertAndRollbackRefused => [.begin, .insert, .rollback]
  | .commitRefused => [.begin, .insert, .commit]
  | .closed => [.begin, .insert, .rollback]

/-- How many numbers the attempt uses up. -/
@[simp] def burnt : RepositoryFault → Nat
  | .commitRefused => 1
  | _ => 0

/-- What is logged when the rollback is refused, too. -/
@[simp] def warnings : RepositoryFault → List LogLine
  | .insertAndRollbackRefused => [.warn "Rollback after failed insert also failed"]
  | .closed => [.warn "Rollback after failed insert also failed"]
  | _ => []

end RepositoryFault

/-! ## §2. The attempt. -/

namespace Repository

/-- The number of the next record. -/
def nextId (r : Repository) : Int64 := Int64.ofNat (r.issued + 1)

/-- As long as the counter has not come to its end, its numbers are distinct. -/
theorem ofNat_inj {k m : Nat} (hk : k < 2 ^ 63) (hm : m < 2 ^ 63)
    (h : Int64.ofNat k = Int64.ofNat m) : k = m := by
  have hint : (Int64.ofNat k).toInt = (Int64.ofNat m).toInt := by rw [h]
  rw [Int64.toInt_ofNat_of_lt hk, Int64.toInt_ofNat_of_lt hm] at hint
  exact Int.ofNat_inj.mp hint

/-- Where a number tells the record, what is found under a number is the record that has it. -/
theorem find?_eq_some_iff {r : Repository}
    (hids : ∀ p ∈ r.pipelines, ∀ q ∈ r.pipelines, p.id = q.id → p = q) {id : Int64}
    {p : StoredPipeline} : r.find? id = some p ↔ p.id = some id ∧ p ∈ r.pipelines := by
  unfold find?
  constructor
  · intro hfound
    exact ⟨by simpa using List.find?_some hfound, List.mem_of_find?_eq_some hfound⟩
  · intro hp
    obtain ⟨hid, hvisible⟩ := hp
    have hsome : (r.pipelines.find? (·.id = some id)).isSome :=
      List.find?_isSome.mpr ⟨p, hvisible, decide_eq_true hid⟩
    obtain ⟨q, hfound⟩ := Option.isSome_iff_exists.mp hsome
    have hq : q.id = some id := by simpa using List.find?_some hfound
    rw [hfound, hids q (List.mem_of_find?_eq_some hfound) p hvisible (hq.trans hid.symm)]

/-- The repository with one more visible record, under the next number. -/
def adding (r : Repository) (kept : StoredPipeline) : Repository :=
  ⟨r.pipelines ++ [kept.withId r.nextId], r.issued + 1⟩

/-- The repository after some numbers have been used up for nothing. -/
def burning (r : Repository) (n : Nat) : Repository := ⟨r.pipelines, r.issued + n⟩

end Repository

namespace Stores

/-- **A repository that works takes the record under the next number.** -/
theorem persist_of_healthy {s : Stores} (h : s.faults.repository = none) (kept : StoredPipeline) :
    s.persist kept =
      (.ok s.repository.nextId,
        { s with
          repository := s.repository.adding kept
          calls := s.calls ++ [.begin, .insert, .commit] },
        []) := by
  obtain ⟨sequences, ciRefs, repository, faults, calls⟩ := s
  change faults.repository = none at h
  simp [persist, beginTransaction, insert, commit, call, record, h, Transaction.insert,
    Transaction.commit, Transaction.new, Repository.adding, Repository.nextId]

/-- **A fault stops the attempt, and nothing of it becomes visible.** -/
theorem persist_of_fault {s : Stores} {fault : RepositoryFault}
    (h : s.faults.repository = some fault) (kept : StoredPipeline) :
    s.persist kept =
      (.error fault.refusal,
        { s with
          repository := s.repository.burning fault.burnt
          calls := s.calls ++ fault.attempted },
        fault.warnings) := by
  obtain ⟨sequences, ciRefs, repository, faults, calls⟩ := s
  change faults.repository = some fault at h
  -- each attempt is followed call by call, up to the one that is refused
  cases fault with
  | beginRefused => simp [persist, beginTransaction, record, h, Repository.burning]
  | insertRefused =>
      simp [persist, beginTransaction, insert, rollback, call, record, h,
        RepositoryFault.refusesInsert, Transaction.rollback, Transaction.new, Repository.burning]
  | insertAndRollbackRefused =>
      simp [persist, beginTransaction, insert, rollback, call, record, h,
        RepositoryFault.refusesInsert, Repository.burning]
  | commitRefused =>
      simp [persist, beginTransaction, insert, commit, call, record, h,
        RepositoryFault.refusesInsert, Transaction.insert, Transaction.new, Repository.burning]
  | closed =>
      simp [persist, beginTransaction, insert, rollback, call, record, h,
        RepositoryFault.refusesInsert, Transaction.insert, Transaction.rollback,
        Transaction.rolledBack, Repository.burning]

end Stores

/-! ## §3. The first refusal. -/

/-- The error of a reply, if it is one. -/
def errorOf? {ε α : Type} : Except ε α → Option ε
  | .error e => some e
  | .ok _ => none

namespace Stores

/-- The first refusal that a record meets on its way into the repository: when its
transaction begins, when it is inserted, or when it is committed. -/
def refusal? (s : Stores) (kept : StoredPipeline) : Option StoreError :=
  match s.beginTransaction with
  | (.error e, _) => some e
  | (.ok t, s) =>
      let inserted := s.insert t kept
      match inserted.result with
      | .error e => some e
      | .ok _ => errorOf? (inserted.stores.commit inserted.transaction).result

/-- A record is refused exactly if the repository is faulty, whatever the record is. -/
theorem refusal?_eq (s : Stores) (kept : StoredPipeline) :
    s.refusal? kept = s.faults.repository.map (·.refusal) := by
  obtain ⟨sequences, ciRefs, repository, faults, calls⟩ := s
  show refusal? ⟨sequences, ciRefs, repository, faults, calls⟩ kept =
    faults.repository.map (·.refusal)
  cases hfault : faults.repository with
  | none =>
      simp [refusal?, errorOf?, beginTransaction, insert, commit, call, record, hfault,
        Transaction.insert, Transaction.commit, Transaction.new]
  | some fault =>
      -- the table of refusals, looked up at the call that each fault refuses
      cases fault <;>
        simp [refusal?, errorOf?, beginTransaction, insert, commit, call, record, hfault,
          RepositoryFault.refusesInsert, Transaction.insert, Transaction.new,
          Transaction.rolledBack]

end Stores

end CiPipeline
