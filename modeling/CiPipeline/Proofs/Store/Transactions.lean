/-
  CiPipeline.Proofs.Store.Transactions
  ────────────────────────────────────
  **Any number of transactions on one repository.**

  Transactions are numbered as they begin, and any of them may be called at any time.
  What has been asked and answered is kept in a log, and the log alone says what there
  is to see: the records of the transactions that have been committed, one transaction
  after the other.  A call has one of a few effects (`Table.effect`), each of which keeps
  the repository and the log in step (`Sound.add`).  Main statement: `consistent_of`.
-/
import CiPipeline.Proofs.Store.Persisting
import Mathlib.Data.List.Nodup

namespace CiPipeline.Transaction

/-! ## §1. Requests and answers. -/

/-- What is asked of the repository, or of the transaction of a number. -/
inductive Request where
  | begin
  | insert (t : Nat) (record : StoredPipeline)
  | commit (t : Nat)
  | rollback (t : Nat)
  /-- The transaction is given up by the one who began it. -/
  | drop (t : Nat)
  deriving DecidableEq

/-- The transaction that a request is for. -/
def Request.target? : Request → Option Nat
  | .begin => none
  | .insert t _ => some t
  | .commit t => some t
  | .rollback t => some t
  | .drop t => some t

/-- What is answered. -/
inductive Answer where
  | begun (t : Nat)
  | inserted (result : Except StoreError Int64)
  /-- The transaction is to be committed or rolled back. -/
  | ended (result : Except StoreError Unit)
  | dropped
  /-- There is no such transaction, or there is none any more. -/
  | gone
  deriving DecidableEq

/-- A repository and all transactions that have begun on it, by number; the dropped ones
are not there any more. -/
structure Table where
  repository : Repository
  transactions : List (Option Transaction)
  deriving DecidableEq

namespace Table

/-- An empty repository on which nothing has begun. -/
def new : Table := ⟨.empty, []⟩

/-- The transaction of a number. -/
def find? (w : Table) (t : Nat) : Option Transaction := w.transactions[t]?.join

/-- Makes a call on the transaction of a number. -/
def call {α : Type} (w : Table) (t : Nat) (run : Transaction → Repository → Reply α)
    (answer : Except StoreError α → Answer) : Table × Answer :=
  match w.find? t with
  | none => (w, .gone)
  | some tx =>
      let reply := run tx w.repository
      (⟨reply.repository, w.transactions.set t (some reply.transaction)⟩, answer reply.result)

/-- Meets a request. -/
def step (w : Table) : Request → Table × Answer
  | .begin => (⟨w.repository, w.transactions ++ [some .new]⟩, .begun w.transactions.length)
  | .insert t record => w.call t (fun tx r => tx.insert r record) .inserted
  | .commit t => w.call t Transaction.commit .ended
  | .rollback t => w.call t Transaction.rollback .ended
  | .drop t =>
      match w.find? t with
      | none => (w, .gone)
      | some _ => (⟨w.repository, w.transactions.set t none⟩, .dropped)

theorem find?_eq_some {w : Table} {t : Nat} {tx : Transaction} :
    w.find? t = some tx ↔ w.transactions[t]? = some (some tx) := by
  unfold find?
  exact Option.join_eq_some_iff

/-- What a request does.  The transaction of an insert, a commit or a rollback is open, or
nothing happens. -/
inductive Effect (w : Table) : Request → Table × Answer → Prop
  | begun :
      Effect w .begin (⟨w.repository, w.transactions ++ [some .new]⟩, .begun w.transactions.length)
  | gone {q : Request} {t : Nat} (htarget : q.target? = some t) (hgone : w.find? t = none) :
      Effect w q (w, .gone)
  | insertRefused {t : Nat} {tx : Transaction} {record : StoredPipeline}
      (hthere : w.find? t = some tx) (hclosed : tx.closed = true) :
      Effect w (.insert t record) (w, .inserted (.error .transactionClosed))
  | endRefused {q : Request} {t : Nat} {tx : Transaction} (hend : q = .commit t ∨ q = .rollback t)
      (hthere : w.find? t = some tx) (hclosed : tx.closed = true) :
      Effect w q (w, .ended (.error .transactionClosed))
  | inserted {t : Nat} {staged : List StoredPipeline} {record : StoredPipeline}
      (hopen : w.find? t = some ⟨staged, false⟩) :
      Effect w (.insert t record)
        (⟨{ w.repository with issued := w.repository.issued + 1 },
          w.transactions.set t (some ⟨staged ++ [record.withId w.repository.nextId], false⟩)⟩,
          .inserted (.ok w.repository.nextId))
  | committed {t : Nat} {staged : List StoredPipeline} (hopen : w.find? t = some ⟨staged, false⟩) :
      Effect w (.commit t)
        (⟨{ w.repository with pipelines := w.repository.pipelines ++ staged },
          w.transactions.set t (some ⟨[], true⟩)⟩,
          .ended (.ok ()))
  | rolledBack {t : Nat} {staged : List StoredPipeline}
      (hopen : w.find? t = some ⟨staged, false⟩) :
      Effect w (.rollback t)
        (⟨w.repository, w.transactions.set t (some ⟨[], true⟩)⟩, .ended (.ok ()))
  | dropped {t : Nat} {tx : Transaction} (hthere : w.find? t = some tx) :
      Effect w (.drop t) (⟨w.repository, w.transactions.set t none⟩, .dropped)

variable {w : Table} {t : Nat} {tx : Transaction}

/-- A table in which a transaction is written back as it is. -/
theorem writtenBack (hthere : w.find? t = some tx) :
    (⟨w.repository, w.transactions.set t (some tx)⟩ : Table) = w := by
  obtain ⟨hlt, heq⟩ := List.getElem?_eq_some_iff.mp (find?_eq_some.mp hthere)
  rw [← heq, List.set_getElem_self]

/-- A closed transaction refuses a call, and nothing changes. -/
theorem call_of_closed {α : Type} (run : Transaction → Repository → Reply α)
    (answer : Except StoreError α → Answer)
    (hrefuses : ∀ staged r,
      run ⟨staged, true⟩ r = ⟨.error .transactionClosed, ⟨staged, true⟩, r⟩)
    {staged : List StoredPipeline}
    (hthere : w.find? t = some ⟨staged, true⟩) :
    w.call t run answer = (w, answer (.error .transactionClosed)) := by
  unfold call
  rw [hthere]
  dsimp only
  rw [hrefuses]
  exact congrArg (·, answer (.error .transactionClosed)) (writtenBack hthere)

/-- A call finds no transaction, or a closed one, which refuses it, or an open one. -/
theorem call_cases {α : Type} (w : Table) (t : Nat) (run : Transaction → Repository → Reply α)
    (answer : Except StoreError α → Answer)
    (hrefuses : ∀ staged r,
      run ⟨staged, true⟩ r = ⟨.error .transactionClosed, ⟨staged, true⟩, r⟩) :
    (w.find? t = none ∧ w.call t run answer = (w, .gone)) ∨
    (∃ tx, w.find? t = some tx ∧ tx.closed = true ∧
      w.call t run answer = (w, answer (.error .transactionClosed))) ∨
    ∃ staged, w.find? t = some ⟨staged, false⟩ ∧
      w.call t run answer =
        (⟨(run ⟨staged, false⟩ w.repository).repository,
          w.transactions.set t (some (run ⟨staged, false⟩ w.repository).transaction)⟩,
          answer (run ⟨staged, false⟩ w.repository).result) := by
  rcases hfind : w.find? t with _ | ⟨staged, closed⟩
  · exact .inl ⟨rfl, by unfold call; rw [hfind]⟩
  · cases closed with
    | false => exact .inr (.inr ⟨staged, rfl, by unfold call; rw [hfind]⟩)
    | true => exact .inr (.inl ⟨_, rfl, rfl, call_of_closed run answer hrefuses hfind⟩)

/-- **Each request has one of a few effects.** -/
theorem effect (w : Table) (q : Request) : Effect w q (w.step q) := by
  -- inserts, commits and rollbacks differ only in what they do to an open transaction
  cases q with
  | begin => exact .begun
  | insert t record =>
      show Effect w _ (w.call t (fun tx r => tx.insert r record) .inserted)
      obtain ⟨hgone, heq⟩ | ⟨tx, hthere, hclosed, heq⟩ | ⟨staged, hopen, heq⟩ :=
        w.call_cases t (fun tx r => tx.insert r record) .inserted fun _ _ => rfl
      · exact heq ▸ .gone rfl hgone
      · exact heq ▸ .insertRefused hthere hclosed
      · exact heq ▸ .inserted hopen
  | commit t =>
      show Effect w _ (w.call t Transaction.commit .ended)
      obtain ⟨hgone, heq⟩ | ⟨tx, hthere, hclosed, heq⟩ | ⟨staged, hopen, heq⟩ :=
        w.call_cases t Transaction.commit .ended fun _ _ => rfl
      · exact heq ▸ .gone rfl hgone
      · exact heq ▸ .endRefused (.inl rfl) hthere hclosed
      · exact heq ▸ .committed hopen
  | rollback t =>
      show Effect w _ (w.call t Transaction.rollback .ended)
      obtain ⟨hgone, heq⟩ | ⟨tx, hthere, hclosed, heq⟩ | ⟨staged, hopen, heq⟩ :=
        w.call_cases t Transaction.rollback .ended fun _ _ => rfl
      · exact heq ▸ .gone rfl hgone
      · exact heq ▸ .endRefused (.inr rfl) hthere hclosed
      · exact heq ▸ .rolledBack hopen
  | drop t =>
      rcases hfind : w.find? t with _ | tx
      · have heq : w.step (.drop t) = (w, .gone) := by simp only [step, hfind]
        exact heq ▸ .gone rfl hfind
      · have heq : w.step (.drop t) = (⟨w.repository, w.transactions.set t none⟩, .dropped) := by
          simp only [step, hfind]
        exact heq ▸ .dropped hfind

end Table

/-! ## §2. What a log says. -/

/-- Requests with their answers, in order. -/
abbrev Log := List (Request × Answer)

namespace Log

/-- The beginning that an entry tells of. -/
@[simp] def beginOf? : Request × Answer → Option Nat
  | (.begin, .begun t) => some t
  | _ => none

/-- The insert that an entry tells of: the transaction, and the record with the number that
has been answered. -/
@[simp] def insertOf? : Request × Answer → Option (Nat × StoredPipeline)
  | (.insert t record, .inserted (.ok id)) => some (t, record.withId id)
  | _ => none

/-- The commit that an entry tells of. -/
@[simp] def commitOf? : Request × Answer → Option Nat
  | (.commit t, .ended (.ok _)) => some t
  | _ => none

/-- The rollback that an entry tells of. -/
@[simp] def rollbackOf? : Request × Answer → Option Nat
  | (.rollback t, .ended (.ok _)) => some t
  | _ => none

/-- The drop that an entry tells of. -/
@[simp] def dropOf? : Request × Answer → Option Nat
  | (.drop t, .dropped) => some t
  | _ => none

/-- The transactions that have begun, in order. -/
def begun (log : Log) : List Nat := log.filterMap beginOf?

/-- All inserts that have been accepted, in order. -/
def inserts (log : Log) : List (Nat × StoredPipeline) := log.filterMap insertOf?

/-- The transactions that have been committed, in order. -/
def committed (log : Log) : List Nat := log.filterMap commitOf?

/-- The transactions that have been rolled back, in order. -/
def rolledBack (log : Log) : List Nat := log.filterMap rollbackOf?

/-- The transactions that have been dropped, in order. -/
def dropped (log : Log) : List Nat := log.filterMap dropOf?

/-- The records that a transaction has been given, in order. -/
def insertedBy (log : Log) (t : Nat) : List StoredPipeline :=
  ((inserts log).filter (·.1 = t)).map (·.2)

theorem mem_insertedBy {log : Log} {t : Nat} {r : StoredPipeline} :
    r ∈ insertedBy log t ↔ (t, r) ∈ inserts log := by
  unfold insertedBy
  simp

theorem filterMap_concat {β : Type} (f : Request × Answer → Option β) (log : Log)
    (e : Request × Answer) : (log ++ [e]).filterMap f = log.filterMap f ++ (f e).toList := by
  rw [List.filterMap_append, List.filterMap_cons]
  cases f e with
  | none => rfl
  | some b => rfl

@[simp] theorem begun_concat (log : Log) (e : Request × Answer) :
    begun (log ++ [e]) = log.begun ++ (beginOf? e).toList := filterMap_concat beginOf? log e

@[simp] theorem inserts_concat (log : Log) (e : Request × Answer) :
    inserts (log ++ [e]) = log.inserts ++ (insertOf? e).toList := filterMap_concat insertOf? log e

@[simp] theorem committed_concat (log : Log) (e : Request × Answer) :
    committed (log ++ [e]) = log.committed ++ (commitOf? e).toList :=
  filterMap_concat commitOf? log e

@[simp] theorem rolledBack_concat (log : Log) (e : Request × Answer) :
    rolledBack (log ++ [e]) = log.rolledBack ++ (rollbackOf? e).toList :=
  filterMap_concat rollbackOf? log e

@[simp] theorem dropped_concat (log : Log) (e : Request × Answer) :
    dropped (log ++ [e]) = log.dropped ++ (dropOf? e).toList := filterMap_concat dropOf? log e

@[simp] theorem insertedBy_concat (log : Log) (e : Request × Answer) (t : Nat) :
    insertedBy (log ++ [e]) t =
      log.insertedBy t ++ (((insertOf? e).toList.filter (·.1 = t)).map (·.2)) := by
  unfold insertedBy
  rw [inserts_concat, List.filter_append, List.map_append]

/-- The transaction that an entry tells something of. -/
def subject? : Request × Answer → Option Nat
  | (.begin, .begun t) => some t
  | (.insert t _, .inserted (.ok _)) => some t
  | (.commit t, .ended (.ok _)) => some t
  | (.rollback t, .ended (.ok _)) => some t
  | (.drop t, .dropped) => some t
  | _ => none

theorem subject?_of_beginOf? {e : Request × Answer} {t : Nat} (h : beginOf? e = some t) :
    subject? e = some t := by
  unfold beginOf? at h
  split at h <;> cases h
  rfl

theorem subject?_of_insertOf? {e : Request × Answer} {i : Nat × StoredPipeline}
    (h : insertOf? e = some i) : subject? e = some i.1 := by
  unfold insertOf? at h
  split at h <;> cases h
  rfl

theorem subject?_of_commitOf? {e : Request × Answer} {t : Nat} (h : commitOf? e = some t) :
    subject? e = some t := by
  unfold commitOf? at h
  split at h <;> cases h
  rfl

theorem subject?_of_rollbackOf? {e : Request × Answer} {t : Nat} (h : rollbackOf? e = some t) :
    subject? e = some t := by
  unfold rollbackOf? at h
  split at h <;> cases h
  rfl

theorem subject?_of_dropOf? {e : Request × Answer} {t : Nat} (h : dropOf? e = some t) :
    subject? e = some t := by
  unfold dropOf? at h
  split at h <;> cases h
  rfl

/-- Two logs say the same of a transaction. -/
structure Agree (log log' : Log) (t : Nat) : Prop where
  begun : t ∈ log'.begun ↔ t ∈ log.begun
  inserted : log'.insertedBy t = log.insertedBy t
  committed : t ∈ log'.committed ↔ t ∈ log.committed
  rolledBack : t ∈ log'.rolledBack ↔ t ∈ log.rolledBack
  dropped : t ∈ log'.dropped ↔ t ∈ log.dropped

theorem mem_append_toList {l : List Nat} {o : Option Nat} {t : Nat} (h : o ≠ some t) :
    t ∈ l ++ o.toList ↔ t ∈ l := by
  rw [List.mem_append, Option.mem_toList]
  exact or_iff_left h

/-- A transaction has the same records unless it is given one. -/
theorem insertedBy_of_other (log : Log) {e : Request × Answer} {t : Nat}
    (h : ∀ i, insertOf? e = some i → i.1 ≠ t) : insertedBy (log ++ [e]) t = log.insertedBy t := by
  rw [insertedBy_concat, List.filter_eq_nil_iff.mpr ?_, List.map_nil, List.append_nil]
  intro i hi htransaction
  exact h i (Option.mem_toList.mp hi) (of_decide_eq_true htransaction)

/-- An entry of another transaction says nothing of one. -/
theorem agree_of_other (log : Log) {e : Request × Answer} {t : Nat} (h : subject? e ≠ some t) :
    Agree log (log ++ [e]) t where
  begun := begun_concat log e ▸ mem_append_toList (mt subject?_of_beginOf? h)
  inserted := insertedBy_of_other log fun _ hi heq => h (heq ▸ subject?_of_insertOf? hi)
  committed := committed_concat log e ▸ mem_append_toList (mt subject?_of_commitOf? h)
  rolledBack := rolledBack_concat log e ▸ mem_append_toList (mt subject?_of_rollbackOf? h)
  dropped := dropped_concat log e ▸ mem_append_toList (mt subject?_of_dropOf? h)

end Log

/-! ## §3. Histories. -/

/-- A table, and the log of all requests that led to it. -/
structure History where
  table : Table
  log : Log

namespace History

/-- Meets one more request. -/
def add (h : History) (q : Request) : History :=
  ⟨(h.table.step q).1, h.log ++ [(q, (h.table.step q).2)]⟩

/-- The history of requests to an empty repository. -/
def of (requests : List Request) : History := requests.foldl add ⟨.new, []⟩

/-- What a log says of a transaction, and what is there of it. -/
inductive Standing (log : Log) (t : Nat) : Option (Option Transaction) → Prop
  | unbegun (hbegun : t ∉ log.begun) (hinserted : log.insertedBy t = [])
      (hcommitted : t ∉ log.committed) (hrolledBack : t ∉ log.rolledBack)
      (hdropped : t ∉ log.dropped) :
      Standing log t none
  | opened (hcommitted : t ∉ log.committed) (hrolledBack : t ∉ log.rolledBack)
      (hdropped : t ∉ log.dropped) :
      Standing log t (some (some ⟨log.insertedBy t, false⟩))
  | closed (hended : t ∈ log.committed ∨ t ∈ log.rolledBack) (hdropped : t ∉ log.dropped) :
      Standing log t (some (some ⟨[], true⟩))
  | dropped (hdropped : t ∈ log.dropped) :
      Standing log t (some none)

/-- What is there of a transaction stays right as long as nothing is said of it. -/
theorem Standing.of_agree {log log' : Log} {t : Nat} {there : Option (Option Transaction)}
    (h : Standing log t there) (hagree : Log.Agree log log' t) : Standing log' t there := by
  obtain ⟨hbegun, hinserted, hcommitted, hrolledBack, hdropped⟩ := hagree
  cases h with
  | unbegun h₁ h₂ h₃ h₄ h₅ =>
      exact .unbegun (mt hbegun.mp h₁) (hinserted.trans h₂) (mt hcommitted.mp h₃)
        (mt hrolledBack.mp h₄) (mt hdropped.mp h₅)
  | opened h₁ h₂ h₃ =>
      rw [← hinserted]
      exact .opened (mt hcommitted.mp h₁) (mt hrolledBack.mp h₂) (mt hdropped.mp h₃)
  | closed h₁ h₂ =>
      exact .closed (h₁.imp hcommitted.mpr hrolledBack.mpr) (mt hdropped.mp h₂)
  | dropped h₁ => exact .dropped (hdropped.mpr h₁)

/-- A repository and a log are in step. -/
structure Sound (h : History) : Prop where
  /-- The counter counts the inserts, those of transactions that come to nothing as well. -/
  ids : h.log.inserts.map (·.2.id) =
    (List.range h.table.repository.issued).map fun k => some (Int64.ofNat (k + 1))
  visible : h.table.repository.pipelines = h.log.committed.flatMap h.log.insertedBy
  once : (h.log.committed ++ h.log.rolledBack).Nodup
  /-- What is staged is known from the log alone, whichever transactions are open. -/
  standing : ∀ t, Standing h.log t h.table.transactions[t]?

theorem sound_new : Sound ⟨.new, []⟩ where
  ids := rfl
  visible := rfl
  once := .nil
  standing := fun _ =>
    .unbegun List.not_mem_nil rfl List.not_mem_nil List.not_mem_nil List.not_mem_nil

variable {h : History} {e : Request × Answer} {t : Nat}

/-- Where an open transaction stands. -/
theorem Sound.of_open (hs : h.Sound) {staged : List StoredPipeline}
    (hopen : h.table.find? t = some ⟨staged, false⟩) :
    staged = h.log.insertedBy t ∧ t ∉ h.log.committed ∧ t ∉ h.log.rolledBack ∧
      t ∉ h.log.dropped := by
  have hstanding := hs.standing t
  rw [Table.find?_eq_some.mp hopen] at hstanding
  cases hstanding with
  | opened hcommitted hrolledBack hdropped => exact ⟨rfl, hcommitted, hrolledBack, hdropped⟩

/-- An open transaction has not ended before. -/
theorem Sound.once_cons (hs : h.Sound) {staged : List StoredPipeline}
    (hopen : h.table.find? t = some ⟨staged, false⟩) :
    (t :: (h.log.committed ++ h.log.rolledBack)).Nodup := by
  obtain ⟨-, hcommitted, hrolledBack, -⟩ := hs.of_open hopen
  refine List.nodup_cons.mpr ⟨?_, hs.once⟩
  rw [List.mem_append]
  exact not_or.mpr ⟨hcommitted, hrolledBack⟩

/-- What is to be seen stays the same unless there is a commit. -/
theorem Sound.visible_concat (hs : h.Sound) (hcommit : Log.commitOf? e = none)
    (hinsert : ∀ i, Log.insertOf? e = some i → i.1 ∉ h.log.committed) :
    h.table.repository.pipelines =
      (Log.committed (h.log ++ [e])).flatMap (Log.insertedBy (h.log ++ [e])) := by
  rw [Log.committed_concat, hcommit, Option.toList_none, List.append_nil, hs.visible]
  apply List.flatMap_congr
  intro t ht
  exact (Log.insertedBy_of_other h.log fun i hi heq => hinsert i hi (heq ▸ ht)).symm

/-- Where all transactions stand after an entry of one of them. -/
theorem Sound.standing_set (hs : h.Sound) (hsubject : Log.subject? e = some t)
    {tx : Transaction} (hthere : h.table.find? t = some tx) {after : Option Transaction}
    (hafter : Standing (h.log ++ [e]) t (some after)) (t' : Nat) :
    Standing (h.log ++ [e]) t' (h.table.transactions.set t after)[t']? := by
  obtain ⟨hlt, -⟩ := List.getElem?_eq_some_iff.mp (Table.find?_eq_some.mp hthere)
  by_cases ht : t = t'
  · rw [← ht, List.getElem?_set_self hlt]
    exact hafter
  · rw [List.getElem?_set_ne ht]
    apply (hs.standing t').of_agree (Log.agree_of_other h.log ?_)
    rw [hsubject]
    exact fun heq => ht (Option.some.inj heq)

/-- An entry that tells of nothing. -/
theorem Sound.silent (hs : h.Sound) (hsilent : Log.subject? e = none) :
    Sound ⟨h.table, h.log ++ [e]⟩ := by
  have htold : ∀ t, Log.subject? e ≠ some t := fun t ht => nomatch hsilent.symm.trans ht
  have hinsert : Log.insertOf? e = none :=
    Option.eq_none_iff_forall_ne_some.mpr fun i hi => htold _ (Log.subject?_of_insertOf? hi)
  have hcommit : Log.commitOf? e = none :=
    Option.eq_none_iff_forall_ne_some.mpr fun t ht => htold t (Log.subject?_of_commitOf? ht)
  have hrollback : Log.rollbackOf? e = none :=
    Option.eq_none_iff_forall_ne_some.mpr fun t ht => htold t (Log.subject?_of_rollbackOf? ht)
  constructor
  · rw [Log.inserts_concat, hinsert, Option.toList_none, List.append_nil]
    exact hs.ids
  · exact hs.visible_concat hcommit fun i hi => nomatch hinsert.symm.trans hi
  · rw [Log.committed_concat, Log.rolledBack_concat, hcommit, hrollback, Option.toList_none,
      List.append_nil, List.append_nil]
    exact hs.once
  · exact fun t => (hs.standing t).of_agree (Log.agree_of_other h.log (htold t))

/-- A transaction begins. -/
theorem Sound.begun (hs : h.Sound) :
    Sound ⟨⟨h.table.repository, h.table.transactions ++ [some .new]⟩,
      h.log ++ [(.begin, .begun h.table.transactions.length)]⟩ := by
  -- nothing has been said of the new transaction yet
  have hnew := hs.standing h.table.transactions.length
  rw [List.getElem?_eq_none (Nat.le_refl _)] at hnew
  cases hnew with
  | unbegun hbegun hinserted hcommitted hrolledBack hdropped =>
  constructor
  · simpa using hs.ids
  · exact hs.visible_concat rfl (by simp)
  · simpa using hs.once
  · intro t
    dsimp only
    by_cases ht : t = h.table.transactions.length
    · subst ht
      rw [List.getElem?_concat_length]
      have hstaged : Transaction.new = ⟨Log.insertedBy (h.log ++
          [(.begin, .begun h.table.transactions.length)]) h.table.transactions.length, false⟩ := by
        simp [hinserted, Transaction.new]
      rw [hstaged]
      exact .opened (by simpa using hcommitted) (by simpa using hrolledBack)
        (by simpa using hdropped)
    · have hthere : (h.table.transactions ++ [some Transaction.new])[t]? =
          h.table.transactions[t]? := by
        rcases Nat.lt_or_gt_of_ne ht with hlt | hgt
        · exact List.getElem?_append_left hlt
        · rw [List.getElem?_eq_none (by rw [List.length_append]; exact hgt),
            List.getElem?_eq_none (Nat.le_of_lt hgt)]
      rw [hthere]
      exact (hs.standing t).of_agree (Log.agree_of_other h.log fun heq =>
        ht (Option.some.inj heq).symm)

/-- An open transaction is given a record. -/
theorem Sound.inserted (hs : h.Sound) {staged : List StoredPipeline} (record : StoredPipeline)
    (hopen : h.table.find? t = some ⟨staged, false⟩) :
    Sound ⟨⟨{ h.table.repository with issued := h.table.repository.issued + 1 },
        h.table.transactions.set t
          (some ⟨staged ++ [record.withId h.table.repository.nextId], false⟩)⟩,
      h.log ++ [(.insert t record, .inserted (.ok h.table.repository.nextId))]⟩ := by
  obtain ⟨rfl, hcommitted, hrolledBack, hdropped⟩ := hs.of_open hopen
  constructor
  · dsimp only
    rw [Log.inserts_concat, List.map_append, hs.ids, List.range_succ, List.map_append]
    rfl
  · exact hs.visible_concat rfl fun i hi => Option.some.inj hi ▸ hcommitted
  · simpa using hs.once
  · apply hs.standing_set rfl hopen
    have hgiven : Log.insertedBy (h.log ++
        [(.insert t record, .inserted (.ok h.table.repository.nextId))]) t =
        h.log.insertedBy t ++ [record.withId h.table.repository.nextId] := by
      simp
    rw [← hgiven]
    exact .opened (by simpa using hcommitted) (by simpa using hrolledBack)
      (by simpa using hdropped)

/-- An open transaction is committed. -/
theorem Sound.committed (hs : h.Sound) {staged : List StoredPipeline}
    (hopen : h.table.find? t = some ⟨staged, false⟩) :
    Sound ⟨⟨{ h.table.repository with pipelines := h.table.repository.pipelines ++ staged },
        h.table.transactions.set t (some ⟨[], true⟩)⟩,
      h.log ++ [(.commit t, .ended (.ok ()))]⟩ := by
  obtain ⟨rfl, hcommitted, hrolledBack, hdropped⟩ := hs.of_open hopen
  constructor
  · simpa using hs.ids
  · -- what was to be seen before is to be seen in front of the new records
    have hsame : Log.insertedBy (h.log ++ [(.commit t, .ended (.ok ()))]) = h.log.insertedBy := by
      funext t'
      exact Log.insertedBy_of_other h.log (by simp)
    dsimp only
    rw [hsame, Log.committed_concat, List.flatMap_append, ← hs.visible]
    simp
  · simpa using List.nodup_middle.mpr (hs.once_cons hopen)
  · apply hs.standing_set rfl hopen
    exact .closed (.inl (by simp)) (by simpa using hdropped)

/-- An open transaction is rolled back. -/
theorem Sound.rolledBack (hs : h.Sound) {staged : List StoredPipeline}
    (hopen : h.table.find? t = some ⟨staged, false⟩) :
    Sound ⟨⟨h.table.repository, h.table.transactions.set t (some ⟨[], true⟩)⟩,
      h.log ++ [(.rollback t, .ended (.ok ()))]⟩ := by
  obtain ⟨rfl, hcommitted, hrolledBack, hdropped⟩ := hs.of_open hopen
  constructor
  · simpa using hs.ids
  · exact hs.visible_concat rfl (by simp)
  · simpa using (List.perm_append_singleton t _).nodup_iff.mpr (hs.once_cons hopen)
  · apply hs.standing_set rfl hopen
    exact .closed (.inr (by simp)) (by simpa using hdropped)

/-- A transaction is dropped. -/
theorem Sound.dropped (hs : h.Sound) {tx : Transaction} (hthere : h.table.find? t = some tx) :
    Sound ⟨⟨h.table.repository, h.table.transactions.set t none⟩,
      h.log ++ [(.drop t, .dropped)]⟩ := by
  -- it may be open or closed: what is staged is lost, and what is committed stays
  constructor
  · simpa using hs.ids
  · exact hs.visible_concat rfl (by simp)
  · simpa using hs.once
  · apply hs.standing_set rfl hthere
    exact .dropped (by simp)

/-- **An effect keeps the repository and the log in step.** -/
theorem Sound.effect (hs : h.Sound) {q : Request} {w : Table} {a : Answer}
    (heffect : h.table.Effect q (w, a)) : Sound ⟨w, h.log ++ [(q, a)]⟩ := by
  cases heffect with
  | begun => exact hs.begun
  | gone htarget hgone => exact hs.silent (by cases q <;> rfl)
  | insertRefused hthere hclosed => exact hs.silent rfl
  | endRefused hend hthere hclosed => exact hs.silent (by rcases hend with rfl | rfl <;> rfl)
  | inserted hopen => exact hs.inserted _ hopen
  | committed hopen => exact hs.committed hopen
  | rolledBack hopen => exact hs.rolledBack hopen
  | dropped hthere => exact hs.dropped hthere

theorem Sound.add (hs : h.Sound) (q : Request) : (h.add q).Sound := hs.effect (h.table.effect q)

/-- Whatever is asked, the repository and the log stay in step. -/
theorem Sound.foldl (requests : List Request) :
    ∀ {h : History}, h.Sound → (requests.foldl History.add h).Sound := by
  induction requests with
  | nil => exact fun hs => hs
  | cons q requests ih => exact fun hs => ih (hs.add q)

theorem sound_of (requests : List Request) : (of requests).Sound := sound_new.foldl requests

end History

/-! ## §4. What can be relied on. -/

namespace History

variable {h : History}

theorem Sound.issued (hs : h.Sound) : h.table.repository.issued = h.log.inserts.length := by
  have hlength := congrArg List.length hs.ids
  rw [List.length_map, List.length_map, List.length_range] at hlength
  exact hlength.symm

/-- No two inserts have the same number. -/
theorem Sound.ids_nodup (hs : h.Sound) (hinserts : h.log.inserts.length < 2 ^ 63) :
    (h.log.inserts.map (·.2.id)).Nodup := by
  rw [hs.ids, hs.issued]
  refine List.Nodup.map_on ?_ List.nodup_range
  intro k hk m hm heq
  have hk := List.mem_range.mp hk
  have hm := List.mem_range.mp hm
  have hnext := Repository.ofNat_inj (by omega) (by omega) (Option.some.inj heq)
  omega

theorem Sound.mem_pipelines (hs : h.Sound) {r : StoredPipeline} :
    r ∈ h.table.repository.pipelines ↔ ∃ t ∈ h.log.committed, (t, r) ∈ h.log.inserts := by
  rw [hs.visible, List.mem_flatMap]
  simp only [Log.mem_insertedBy]

/-- The number of an insert tells the transaction and the record. -/
theorem Sound.insert_eq (hs : h.Sound) (hinserts : h.log.inserts.length < 2 ^ 63)
    {i i' : Nat × StoredPipeline} (hi : i ∈ h.log.inserts) (hi' : i' ∈ h.log.inserts)
    (hid : i.2.id = i'.2.id) : i = i' :=
  List.inj_on_of_nodup_map (hs.ids_nodup hinserts) hi hi' hid

/-- What is found under a number is the record that was committed under it. -/
theorem Sound.find?_eq_some (hs : h.Sound) (hinserts : h.log.inserts.length < 2 ^ 63)
    {id : Int64} {r : StoredPipeline} :
    h.table.repository.find? id = some r ↔
      r.id = some id ∧ ∃ t ∈ h.log.committed, (t, r) ∈ h.log.inserts := by
  rw [← hs.mem_pipelines]
  refine Repository.find?_eq_some_iff fun p hp q hq hid => ?_
  obtain ⟨t, -, hp⟩ := hs.mem_pipelines.mp hp
  obtain ⟨t', -, hq⟩ := hs.mem_pipelines.mp hq
  cases hs.insert_eq hinserts hp hq hid
  rfl

/-- What has begun and has not ended is open, and holds what it has been given. -/
theorem Sound.opened (hs : h.Sound) {t : Nat} (hbegun : t ∈ h.log.begun)
    (hcommitted : t ∉ h.log.committed) (hrolledBack : t ∉ h.log.rolledBack)
    (hdropped : t ∉ h.log.dropped) :
    h.table.find? t = some ⟨h.log.insertedBy t, false⟩ := by
  have hstanding := hs.standing t
  generalize hthere : h.table.transactions[t]? = there at hstanding
  cases hstanding with
  | unbegun hunbegun => exact absurd hbegun hunbegun
  | opened => exact Table.find?_eq_some.mpr hthere
  | closed hended _ => exact absurd hended (not_or.mpr ⟨hcommitted, hrolledBack⟩)
  | dropped hdropped' => exact absurd hdropped' hdropped

/-- Four transactions side by side: the second one is committed and then refuses a record, the
third one is rolled back, the fourth one is dropped, and the first one is committed last. -/
def sample : List Request :=
  [.begin, .begin, .insert 0 default, .insert 1 default, .begin, .insert 2 default, .commit 1,
    .insert 0 default, .rollback 2, .insert 1 default, .begin, .insert 3 default, .drop 3,
    .commit 0, .commit 3]

end History

end CiPipeline.Transaction
