/-
  CiPipeline.Proofs.Store.Sequence
  ────────────────────────────────
  **Numbers of a scope only go up.**

  The greatest number is never added to, so the next number of a scope is greater
  than every number that the scope has handed out, also as an integer.  A scope that
  has come to the greatest number hands out none (`next_cases`).
-/
import CiPipeline.Store.Sequence

namespace CiPipeline.Sequences

/-- A number that is not the greatest has a successor. -/
theorem toInt_add_one {n : Int64} (h : n ≠ Int64.maxValue) : (n + 1).toInt = n.toInt + 1 := by
  have hle : n.toInt ≤ 2 ^ 63 - 1 := n.toInt_le
  have hge : -2 ^ 63 ≤ n.toInt := n.le_toInt
  have hne : n.toInt ≠ 2 ^ 63 - 1 := by
    intro hmax
    exact h (Int64.toInt_inj.mp (hmax.trans Int64.toInt_maxValue.symm))
  have hone : (1 : Int64).toInt = 1 := by decide
  rw [Int64.toInt_add, hone]
  -- the sum stays within the range, so nothing wraps around
  apply Int.bmod_eq_of_le
  · omega
  · omega

/-- **A number that is handed out is one more than the last one, and becomes the last
one of its scope.** -/
theorem next_eq_ok {s : Sequences} {scope : SequenceScope} {n : Int64} {t : Sequences}
    (h : s.next scope = (.ok n, t)) :
    n.toInt = ((s.current? scope).getD 0).toInt + 1 ∧ t = s.set scope n := by
  unfold next at h
  dsimp only at h
  split at h
  case isTrue => cases h
  case isFalse hne =>
    cases h
    exact ⟨toInt_add_one hne, rfl⟩

/-- The scope has handed out the greatest number. -/
def Exhausted (s : Sequences) (scope : SequenceScope) : Prop :=
  s.current? scope = some Int64.maxValue

/-- Only an exhausted scope refuses a number. -/
theorem exhausted_of_next {s t : Sequences} {scope : SequenceScope} {e : SequenceError}
    (h : s.next scope = (.error e, t)) : s.Exhausted scope := by
  unfold next at h
  dsimp only at h
  split at h
  case isTrue hlast =>
    unfold Exhausted
    cases hcurrent : s.current? scope with
    | none =>
        -- a scope that has not been used is far from its end
        rw [hcurrent] at hlast
        exact absurd hlast (by decide)
    | some n =>
        rw [hcurrent] at hlast
        exact congrArg some hlast
  case isFalse => cases h

/-- An exhausted scope has no number left. -/
theorem Exhausted.not_next {s t : Sequences} {scope : SequenceScope} {n : Int64}
    (h : s.Exhausted scope) : s.next scope ≠ (.ok n, t) := by
  intro hnext
  unfold Exhausted at h
  unfold next at hnext
  rw [h] at hnext
  cases hnext

/-- **A scope hands out the number behind its last one, or it is exhausted and the store
stays as it is.** -/
theorem next_cases (s : Sequences) (scope : SequenceScope) :
    (¬s.Exhausted scope ∧ ∃ n, s.next scope = (.ok n, s.set scope n) ∧
      n.toInt = ((s.current? scope).getD 0).toInt + 1) ∨
    (s.Exhausted scope ∧ s.next scope = (.error (.exhausted scope), s)) := by
  by_cases hexhausted : s.Exhausted scope
  · refine .inr ⟨hexhausted, ?_⟩
    unfold Exhausted at hexhausted
    unfold next
    rw [hexhausted]
    rfl
  · refine .inl ⟨hexhausted, ?_⟩
    cases hnext : s.next scope with
    | mk result t =>
        cases result with
        | error e => exact absurd (exhausted_of_next hnext) hexhausted
        | ok n =>
            obtain ⟨hn, rfl⟩ := next_eq_ok hnext
            exact ⟨n, rfl, hn⟩

end CiPipeline.Sequences
