/-
  CiPipeline.Store.Repository
  ───────────────────────────
  **The repository of pipelines, and its transactions.**

  What a transaction inserts is staged; it becomes visible when the transaction is
  committed, all at once and behind what is visible already.  A transaction that
  has been committed or rolled back is closed.  All transactions take the numbers
  of their records from one counter, so a number is never given twice, not even
  when the insert is rolled back.
-/
import CiPipeline.Store.StoredPipeline

namespace CiPipeline

/-- Why the repository or the registry of refs refuses a call. -/
inductive StoreError where
  /-- The transaction has been committed or rolled back. -/
  | transactionClosed
  /-- The store itself fails. -/
  | backend (detail : String)
  deriving DecidableEq, Repr

/-- The message of a refusal. -/
def StoreError.message : StoreError → String
  | .transactionClosed => "transaction already closed"
  | .backend detail => "persistence backend error: " ++ detail

/-- The visible pipelines, and how many inserts there have been. -/
structure Repository where
  pipelines : List StoredPipeline
  issued : Nat
  deriving DecidableEq

namespace Repository

/-- Nothing has been inserted. -/
def empty : Repository := ⟨[], 0⟩

instance : Inhabited Repository := ⟨empty⟩

/-- The number of visible pipelines. -/
def size (r : Repository) : Nat := r.pipelines.length

/-- The visible pipeline of a number. -/
def find? (r : Repository) (id : Int64) : Option StoredPipeline :=
  r.pipelines.find? (·.id = some id)

end Repository

/-- The staged records of a transaction, and whether it is closed. -/
structure Transaction where
  staged : List StoredPipeline
  closed : Bool
  deriving DecidableEq

namespace Transaction

/-- A new transaction. -/
def new : Transaction := ⟨[], false⟩

instance : Inhabited Transaction := ⟨new⟩

/-- A transaction that has been rolled back. -/
def rolledBack : Transaction := ⟨[], true⟩

/-- What a call on a transaction leaves behind. -/
structure Reply (α : Type) where
  result : Except StoreError α
  transaction : Transaction
  repository : Repository

/-- Stages a record under the next number. -/
def insert (t : Transaction) (r : Repository) (record : StoredPipeline) : Reply Int64 :=
  if t.closed then ⟨.error .transactionClosed, t, r⟩
  else
    -- the counter belongs to the repository: a rollback does not give the number back
    let id := Int64.ofNat (r.issued + 1)
    ⟨.ok id, { t with staged := t.staged ++ [record.withId id] }, { r with issued := r.issued + 1 }⟩

/-- Makes the staged records visible. -/
def commit (t : Transaction) (r : Repository) : Reply Unit :=
  if t.closed then ⟨.error .transactionClosed, t, r⟩
  else ⟨.ok (), ⟨[], true⟩, { r with pipelines := r.pipelines ++ t.staged }⟩

/-- Drops the staged records. -/
def rollback (t : Transaction) (r : Repository) : Reply Unit :=
  if t.closed then ⟨.error .transactionClosed, t, r⟩
  else ⟨.ok (), rolledBack, r⟩

end Transaction

end CiPipeline
