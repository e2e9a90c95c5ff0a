/-
  CiPipeline.Store.Stores
  ───────────────────────
  **The stores that pipelines are made with, and how they fail.**

  Numbers, registered refs and pipelines each have a store.  A store may be made
  to fail: then a call is refused before it reaches what the store holds.  Every
  call on the repository and its transactions is kept, also one that is refused.
-/
import CiPipeline.Store.CiRefs
import CiPipeline.Store.Repository
import CiPipeline.Store.Sequence

namespace CiPipeline

/-! ## §1. Faults and calls. -/

/-- How the repository fails. -/
inductive RepositoryFault where
  | beginRefused
  | insertRefused
  | insertAndRollbackRefused
  | commitRefused
  /-- Every new transaction has been rolled back already. -/
  | closed
  deriving DecidableEq, Repr

namespace RepositoryFault

/-- Inserts are refused. -/
def refusesInsert : RepositoryFault → Bool
  | .insertRefused => true
  | .insertAndRollbackRefused => true
  | _ => false

end RepositoryFault

/-- Which stores fail. -/
structure Faults where
  sequences : Bool
  ciRefs : Bool
  repository : Option RepositoryFault
  deriving DecidableEq, Repr

/-- All stores work. -/
def Faults.none : Faults := ⟨false, false, .none⟩

/-- A call on the repository or on a transaction. -/
inductive RepositoryCall where
  | begin
  | insert
  | commit
  | rollback
  deriving DecidableEq, Repr

/-- The name of a call. -/
def RepositoryCall.name : RepositoryCall → String
  | .begin => "begin"
  | .insert => "insert"
  | .commit => "commit"
  | .rollback => "rollback"

/-! ## §2. The stores. -/

/-- The stores with their faults and the calls on the repository so far. -/
structure Stores where
  sequences : Sequences
  ciRefs : CiRefs
  repository : Repository
  faults : Faults
  calls : List RepositoryCall

namespace Stores

/-- Stores that hold nothing and work. -/
def empty : Stores := ⟨.empty, .empty, .empty, .none, []⟩

instance : Inhabited Stores := ⟨empty⟩

/-- Keeps a call. -/
def record (s : Stores) (call : RepositoryCall) : Stores :=
  { s with calls := s.calls ++ [call] }

/-- The next number of a scope. -/
def nextNumber (s : Stores) (scope : SequenceScope) : Except SequenceError Int64 × Stores :=
  if s.faults.sequences then (.error (.backend "sequence backend unavailable"), s)
  else
    let (result, sequences) := s.sequences.next scope
    (result, { s with sequences := sequences })

/-- The last number of a scope. -/
def lastNumber (s : Stores) (scope : SequenceScope) : Except SequenceError (Option Int64) :=
  if s.faults.sequences then .error (.backend "sequence backend unavailable")
  else .ok (s.sequences.current? scope)

/-- The registered ref of a path. -/
def register (s : Stores) (project : ProjectId) (path : String) :
    Except StoreError CiRef × Stores :=
  if s.faults.ciRefs then (.error (.backend "ci ref backend unavailable"), s)
  else
    let (ciRef, refs) := s.ciRefs.register project path
    (.ok ciRef, { s with ciRefs := refs })

/-! ## §3. Transactions. -/

/-- What a call on a transaction leaves behind. -/
structure Reply (α : Type) where
  result : Except StoreError α
  transaction : Transaction
  stores : Stores

/-- Starts a transaction. -/
def beginTransaction (s : Stores) : Except StoreError Transaction × Stores :=
  let s := s.record .begin
  match s.faults.repository with
  | some .beginRefused => (.error (.backend "begin refused"), s)
  | some .closed => (.ok .rolledBack, s)
  | _ => (.ok .new, s)

/-- Makes a call on a transaction, unless it is refused. -/
def call {α : Type} (s : Stores) (t : Transaction) (kind : RepositoryCall)
    (refusal : Option String) (run : Transaction → Repository → Transaction.Reply α) : Reply α :=
  let s := s.record kind
  match refusal with
  | some detail => ⟨.error (.backend detail), t, s⟩
  | none =>
      let reply := run t s.repository
      ⟨reply.result, reply.transaction, { s with repository := reply.repository }⟩

/-- Inserts a record into a transaction. -/
def insert (s : Stores) (t : Transaction) (record : StoredPipeline) : Reply Int64 :=
  s.call t .insert
    (if s.faults.repository.any (·.refusesInsert) then some "insert refused" else none)
    fun t r => t.insert r record

/-- Commits a transaction. -/
def commit (s : Stores) (t : Transaction) : Reply Unit :=
  s.call t .commit
    (if s.faults.repository = some .commitRefused then some "commit refused" else none)
    Transaction.commit

/-- Rolls a transaction back. -/
def rollback (s : Stores) (t : Transaction) : Reply Unit :=
  s.call t .rollback
    (if s.faults.repository = some .insertAndRollbackRefused then some "rollback refused" else none)
    Transaction.rollback

end Stores

end CiPipeline
