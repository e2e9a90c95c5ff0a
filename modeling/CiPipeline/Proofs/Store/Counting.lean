/-
  CiPipeline.Proofs.Store.Counting
  ────────────────────────────────
  **Every scope counts on from its start, one by one and on its own.**

  A call asks for the next number of a scope, or for its last one.  After any calls the
  numbers that a scope has handed out are those behind its first last number, without a
  gap, and the last of them is its last number now (`Sound`).  Once a scope has come
  to the greatest number it hands out no other one, and nothing that is asked of one scope
  shows in the answers of another (`answers_apart`).  Main statement: `numbers_counted`.
-/
import CiPipeline.Proofs.Store.Sequence
import Mathlib.Data.List.Induction

namespace CiPipeline

/-! ## §1. Calls. -/

/-- The last number of a scope as an integer, zero if the scope has not been used. -/
def Sequences.lastIn (s : Sequences) (scope : SequenceScope) : Int :=
  ((s.current? scope).getD 0).toInt

/-- A call to the sequences. -/
inductive SequenceCall where
  /-- Asks for the next number of a scope. -/
  | next (scope : SequenceScope)
  /-- Asks for the last number of a scope. -/
  | current (scope : SequenceScope)
  deriving DecidableEq

/-- What a call is answered. -/
inductive SequenceAnswer where
  | number (result : Except SequenceError Int64)
  | last (n : Option Int64)

namespace SequenceCall

/-- The scope that a call is about. -/
def scope : SequenceCall → SequenceScope
  | .next scope => scope
  | .current scope => scope

/-- Makes a call. -/
def make (s : Sequences) : SequenceCall → SequenceAnswer × Sequences
  | .next scope => (.number (s.next scope).1, (s.next scope).2)
  | .current scope => (.last (s.current? scope), s)

theorem make_next (s : Sequences) (scope : SequenceScope) :
    (next scope).make s = (.number (s.next scope).1, (s.next scope).2) := rfl

/-- A call leaves all scopes alone but its own. -/
theorem current?_make_of_other (s : Sequences) (c : SequenceCall) {other : SequenceScope}
    (h : other ≠ c.scope) : (c.make s).2.current? other = s.current? other := by
  cases c with
  | current scope => rfl
  | next scope =>
      replace h : other ≠ scope := h
      rw [make_next]
      obtain ⟨-, n, hnext, -⟩ | ⟨-, hnext⟩ := s.next_cases scope
      · rw [hnext, Sequences.current?_set, if_neg h]
      · rw [hnext]

/-- An exhausted scope stays so, whatever is asked. -/
theorem exhausted_make {s : Sequences} {scope : SequenceScope} (h : s.Exhausted scope)
    (c : SequenceCall) : (c.make s).2.Exhausted scope := by
  cases c with
  | current asked => exact h
  | next asked =>
      obtain ⟨hopen, -⟩ | ⟨-, hnext⟩ := s.next_cases asked
      · -- a number has been handed out, so it was by another scope
        have hother : scope ≠ (next asked).scope := by
          rintro rfl
          exact hopen h
        exact (current?_make_of_other s (.next asked) hother).trans h
      · rw [make_next, hnext]
        exact h

/-- What a call does to its scope and is answered depends on the last number of the scope
alone. -/
theorem make_congr {s t : Sequences} {c : SequenceCall}
    (h : s.current? c.scope = t.current? c.scope) :
    (c.make s).1 = (c.make t).1 ∧
      (c.make s).2.current? c.scope = (c.make t).2.current? c.scope := by
  cases c with
  | current scope => exact ⟨congrArg SequenceAnswer.last h, h⟩
  | next scope =>
      replace h : s.current? scope = t.current? scope := h
      show SequenceAnswer.number (s.next scope).1 = .number (t.next scope).1 ∧
        (s.next scope).2.current? scope = (t.next scope).2.current? scope
      unfold Sequences.next
      rw [h]
      dsimp only
      split
      · exact ⟨rfl, h⟩
      · simp only [Sequences.current?_set, if_true, and_self]

end SequenceCall

/-! ## §2. Calls one after the other. -/

/-- Calls with their answers so far, and the store after them. -/
structure SequenceHistory where
  answers : List (SequenceCall × SequenceAnswer)
  store : Sequences

/-- The number that a call has got from a scope, if it has got one. -/
def issuedIn (scope : SequenceScope) : SequenceCall × SequenceAnswer → Option Int64
  | (.next asked, .number (.ok n)) => if asked = scope then some n else none
  | _ => none

namespace SequenceHistory

/-- Makes the next call. -/
def next (h : SequenceHistory) (c : SequenceCall) : SequenceHistory :=
  ⟨h.answers ++ [(c, (c.make h.store).1)], (c.make h.store).2⟩

/-- The history of calls, from a store on. -/
def of (start : Sequences) (calls : List SequenceCall) : SequenceHistory :=
  calls.foldl next ⟨[], start⟩

theorem of_concat (start : Sequences) (calls : List SequenceCall) (c : SequenceCall) :
    of start (calls ++ [c]) = (of start calls).next c := by
  unfold of
  rw [List.foldl_append]
  rfl

/-- The numbers that a scope has handed out, in their order. -/
def issued (h : SequenceHistory) (scope : SequenceScope) : List Int64 :=
  h.answers.filterMap (issuedIn scope)

theorem issued_next (h : SequenceHistory) (c : SequenceCall) (scope : SequenceScope) :
    (h.next c).issued scope =
      h.issued scope ++ (issuedIn scope (c, (c.make h.store).1)).toList := by
  unfold issued next
  rw [List.filterMap_append]
  cases hissued : issuedIn scope (c, (c.make h.store).1) with
  | none => simp [hissued]
  | some n => simp [hissued]

/-- What holds of the numbers after any calls. -/
structure Sound (start : Sequences) (calls : List SequenceCall) (h : SequenceHistory) :
    Prop where
  /-- Every call has its answer, in the order of the calls. -/
  complete : h.answers.map (·.1) = calls
  /-- The numbers of a scope follow upon its first last number one by one. -/
  consecutive : ∀ (scope : SequenceScope) (i : Nat) (n : Int64),
    (h.issued scope)[i]? = some n → n.toInt = start.lastIn scope + (i + 1)
  /-- The last number has gone up by one for each number. -/
  counter : ∀ scope, h.store.lastIn scope = start.lastIn scope + (h.issued scope).length
  /-- The number that was handed out last is the last one. -/
  last : ∀ scope, h.store.current? scope =
    (h.issued scope).getLast?.or (start.current? scope)
  /-- No last number has only a scope that neither had one before nor was asked for one. -/
  unused_iff : ∀ scope, h.store.current? scope = none ↔
    start.current? scope = none ∧ .next scope ∉ calls

theorem sound_nil (start : Sequences) : Sound start [] ⟨[], start⟩ where
  complete := rfl
  consecutive := fun _ _ _ hn => by cases hn
  counter := fun _ => (Int.add_zero _).symm
  last := fun _ => rfl
  unused_iff := fun _ => ⟨fun h => ⟨h, List.not_mem_nil⟩, fun h => h.1⟩

/-- A call that hands out nothing and leaves the store as it is keeps what holds of the
numbers. -/
theorem Sound.silent {start : Sequences} {calls : List SequenceCall} {h : SequenceHistory}
    (hs : Sound start calls h) {c : SequenceCall}
    (hanswer : ∀ scope, issuedIn scope (c, (c.make h.store).1) = none)
    (hstore : (c.make h.store).2 = h.store)
    (hused : ∀ scope, c = .next scope → h.store.current? scope ≠ none) :
    Sound start (calls ++ [c]) (h.next c) := by
  have hissued : ∀ scope, (h.next c).issued scope = h.issued scope := by
    intro scope
    rw [issued_next, hanswer scope]
    exact List.append_nil _
  have hsame : (h.next c).store = h.store := hstore
  refine ⟨?_, ?_, ?_, ?_, ?_⟩
  · unfold next
    rw [List.map_append, hs.complete]
    rfl
  · intro scope i n hn
    rw [hissued] at hn
    exact hs.consecutive scope i n hn
  · intro scope
    rw [hsame, hissued]
    exact hs.counter scope
  · intro scope
    rw [hsame, hissued]
    exact hs.last scope
  · intro scope
    rw [hsame, hs.unused_iff scope, List.mem_append, List.mem_singleton]
    constructor
    · intro h
      refine ⟨h.1, ?_⟩
      rintro (hmem | rfl)
      · exact h.2 hmem
      · exact hused scope rfl ((hs.unused_iff scope).mpr h)
    · intro h
      exact ⟨h.1, fun hmem => h.2 (.inl hmem)⟩

/-- A call that hands out the number behind the last one keeps what holds of the
numbers. -/
theorem Sound.issue {start : Sequences} {calls : List SequenceCall} {h : SequenceHistory}
    (hs : Sound start calls h) {scope : SequenceScope} {n : Int64}
    (hn : n.toInt = h.store.lastIn scope + 1)
    (hmake : (SequenceCall.next scope).make h.store = (.number (.ok n), h.store.set scope n)) :
    Sound start (calls ++ [.next scope]) (h.next (.next scope)) := by
  have hstore : (h.next (.next scope)).store = h.store.set scope n := by
    unfold next
    rw [hmake]
  have hissued : ∀ other, (h.next (.next scope)).issued other =
      if other = scope then h.issued other ++ [n] else h.issued other := by
    intro other
    rw [issued_next, hmake]
    show h.issued other ++ (if scope = other then some n else none).toList = _
    by_cases hother : other = scope
    · rw [if_pos hother, if_pos hother.symm]
      rfl
    · rw [if_neg hother, if_neg (Ne.symm hother)]
      exact List.append_nil _
  refine ⟨?_, ?_, ?_, ?_, ?_⟩
  · unfold next
    rw [List.map_append, hs.complete]
    rfl
  · intro other i m hm
    rw [hissued] at hm
    split at hm
    case isFalse => exact hs.consecutive other i m hm
    case isTrue hother =>
      subst hother
      -- a number that stands before the new one, or the new one itself
      rcases Nat.lt_or_ge i (h.issued other).length with hi | hi
      · rw [List.getElem?_append_left hi] at hm
        exact hs.consecutive other i m hm
      · rw [List.getElem?_append_right hi, List.getElem?_singleton] at hm
        split at hm
        case isFalse => cases hm
        case isTrue hlast =>
          cases hm
          have hcounter := hs.counter other
          omega
  · intro other
    unfold Sequences.lastIn
    rw [hstore, Sequences.current?_set, hissued]
    by_cases hother : other = scope
    · subst hother
      rw [if_pos rfl, if_pos rfl, List.length_append, List.length_singleton]
      have hcounter := hs.counter other
      unfold Sequences.lastIn at hn hcounter
      show n.toInt = _
      omega
    · rw [if_neg hother, if_neg hother]
      exact hs.counter other
  · intro other
    rw [hstore, Sequences.current?_set, hissued]
    by_cases hother : other = scope
    · rw [if_pos hother, if_pos hother, List.getLast?_concat]
      rfl
    · rw [if_neg hother, if_neg hother]
      exact hs.last other
  · intro other
    rw [hstore, Sequences.current?_set, List.mem_append, List.mem_singleton]
    by_cases hother : other = scope
    · rw [if_pos hother, hother]
      exact ⟨nofun, fun h => absurd (.inr rfl) h.2⟩
    · rw [if_neg hother, hs.unused_iff other]
      refine and_congr_right fun _ => not_congr ⟨.inl, ?_⟩
      rintro (hmem | heq)
      · exact hmem
      · exact absurd (SequenceCall.next.inj heq) hother

/-- One more call keeps what holds of the numbers. -/
theorem Sound.next {start : Sequences} {calls : List SequenceCall} {h : SequenceHistory}
    (hs : Sound start calls h) (c : SequenceCall) : Sound start (calls ++ [c]) (h.next c) := by
  cases c with
  | current scope =>
      refine hs.silent (fun _ => rfl) rfl ?_
      intro asked heq
      cases heq
  | next scope =>
      obtain ⟨-, n, hnext, hn⟩ | ⟨hexhausted, hnext⟩ := h.store.next_cases scope
      · exact hs.issue hn (by rw [SequenceCall.make_next, hnext])
      · refine hs.silent ?_ (by rw [SequenceCall.make_next, hnext]) ?_
        · intro asked
          rw [SequenceCall.make_next, hnext]
          rfl
        · intro asked heq hnone
          -- an exhausted scope has been used
          cases heq
          unfold Sequences.Exhausted at hexhausted
          rw [hnone] at hexhausted
          cases hexhausted

/-- **What holds of the numbers holds after any calls.** -/
theorem sound_of (start : Sequences) (calls : List SequenceCall) :
    Sound start calls (of start calls) := by
  induction calls using List.reverseRecOn with
  | nil => exact sound_nil start
  | append_singleton calls c ih =>
      rw [of_concat]
      exact ih.next c

/-! ## §3. Scopes on their own, and at their end. -/

/-- **What is answered about a scope is what would be answered if nothing else were
asked.** -/
theorem answers_apart (start : Sequences) (calls : List SequenceCall) (scope : SequenceScope) :
    (of start calls).answers.filter (·.1.scope = scope) =
        (of start (calls.filter (·.scope = scope))).answers ∧
      (of start calls).store.current? scope =
        (of start (calls.filter (·.scope = scope))).store.current? scope := by
  induction calls using List.reverseRecOn with
  | nil => exact ⟨rfl, rfl⟩
  | append_singleton calls c ih =>
      obtain ⟨hanswers, hcurrent⟩ := ih
      rw [of_concat, List.filter_append]
      unfold next
      dsimp only
      rw [List.filter_append, hanswers]
      by_cases hscope : c.scope = scope
      · subst hscope
        obtain ⟨hanswer, hstore⟩ := SequenceCall.make_congr hcurrent
        rw [List.filter_cons_of_pos (by simp), List.filter_cons_of_pos (by simp), List.filter_nil,
          List.filter_nil, of_concat]
        unfold next
        exact ⟨by rw [hanswer], hstore⟩
      · -- a call about another scope is neither among the answers nor seen by the scope
        rw [List.filter_cons_of_neg (by simpa using hscope),
          List.filter_cons_of_neg (by simpa using hscope), List.filter_nil, List.filter_nil,
          List.append_nil, List.append_nil,
          c.current?_make_of_other _ (Ne.symm hscope)]
        exact ⟨rfl, hcurrent⟩

/-- An exhausted scope stays so, whatever is asked later on. -/
theorem exhausted_of {s : Sequences} {scope : SequenceScope} (h : s.Exhausted scope)
    (later : List SequenceCall) : (of s later).store.Exhausted scope := by
  induction later using List.reverseRecOn with
  | nil => exact h
  | append_singleton later c ih =>
      rw [of_concat]
      exact SequenceCall.exhausted_make ih c

/-- What holds after any calls, and of any call that comes next. -/
structure Counted (start : Sequences) (calls : List SequenceCall) (h : SequenceHistory) : Prop
    extends Sound start calls h where
  /-- The numbers of a scope go up, so none is met twice. -/
  increasing : ∀ scope, (h.issued scope).Pairwise (· < ·)
  /-- The next number is one more than the last one, becomes the last one, and is no matter of
  another scope; it is refused exactly at the greatest number, and then nothing changes. -/
  next_number : ∀ scope,
    (¬h.store.Exhausted scope ∧ ∃ n t, h.store.next scope = (.ok n, t) ∧
      n.toInt = h.store.lastIn scope + 1 ∧ t.current? scope = some n ∧
      ∀ other, other ≠ scope → t.current? other = h.store.current? other) ∨
    (h.store.Exhausted scope ∧ h.store.next scope = (.error (.exhausted scope), h.store))
  /-- A scope that refuses a number refuses all from then on, whatever else is asked. -/
  refused_forever : ∀ scope, h.store.Exhausted scope → ∀ later,
    (of h.store later).store.next scope =
      (.error (.exhausted scope), (of h.store later).store)
  /-- The answers about a scope are those to the calls about it alone. -/
  apart : ∀ scope, h.answers.filter (·.1.scope = scope) =
    (of start (calls.filter (·.scope = scope))).answers

/-- Numbers that follow upon one another go up. -/
theorem Sound.increasing {start : Sequences} {calls : List SequenceCall} {h : SequenceHistory}
    (hs : Sound start calls h) (scope : SequenceScope) : (h.issued scope).Pairwise (· < ·) := by
  rw [List.pairwise_iff_getElem]
  intro i j hi hj hij
  have hm := hs.consecutive scope i _ (List.getElem?_eq_getElem hi)
  have hn := hs.consecutive scope j _ (List.getElem?_eq_getElem hj)
  rw [Int64.lt_iff_toInt_lt, hm, hn]
  omega

/-- **From whatever numbers a store goes on and whatever is asked of it, every scope counts on
from its last number one by one, up to the greatest number and no further, and on its own.** -/
theorem numbers_counted (start : Sequences) (calls : List SequenceCall) :
    Counted start calls (of start calls) ∧
      (∀ scope, Sequences.empty.current? scope = none) ∧
      ∀ first last scope, (Sequences.goingOnAfter first last).current? scope =
        if scope = first then some last else none := by
  have hs := sound_of start calls
  refine ⟨⟨hs, hs.increasing, ?_, ?_, ?_⟩, fun _ => rfl, ?_⟩
  · intro scope
    obtain ⟨hopen, n, hnext, hn⟩ | hrefused := (of start calls).store.next_cases scope
    · refine .inl ⟨hopen, n, _, hnext, hn, ?_, ?_⟩
      · rw [Sequences.current?_set, if_pos rfl]
      · intro other hother
        rw [Sequences.current?_set, if_neg hother]
    · exact .inr hrefused
  · intro scope hexhausted later
    have hstill := exhausted_of hexhausted later
    obtain ⟨hopen, -⟩ | ⟨-, hnext⟩ := (of (of start calls).store later).store.next_cases scope
    · exact absurd hstill hopen
    · exact hnext
  · intro scope
    exact (answers_apart start calls scope).1
  · intro first last scope
    unfold Sequences.goingOnAfter Sequences.current?
    by_cases hscope : scope = first
    · rw [if_pos hscope, hscope]
      simp
    · rw [if_neg hscope]
      simp [Ne.symm hscope]

/-- Two calls below the greatest number, one for another scope between them, and one too
many. -/
example :
    let scope := SequenceScope.pipelines ⟨1⟩
    (of (.goingOnAfter scope (Int64.maxValue - 2))
      [.next scope, .next (.pipelines ⟨2⟩), .next scope, .next scope, .current scope]).answers.map
        (·.2) =
      [.number (.ok (Int64.maxValue - 1)), .number (.ok 1), .number (.ok Int64.maxValue),
        .number (.error (.exhausted scope)), .last (some Int64.maxValue)] := rfl

end SequenceHistory

end CiPipeline
