/-
  CiPipeline.Proofs.Regex.Search
  ──────────────────────────────
  **A search by partial derivatives finds what an expression matches.**

  The empty match and the derivatives keep to what an expression matches
  (`matches_nil_iff`, `matches_cons_iff`), and so does the search, which keeps all partial
  derivatives of all starts alive at once.  Main statement: `search_iff`.
-/
import CiPipeline.Regex.Matching
import Mathlib.Data.List.Basic

namespace CiPipeline.Regex

/-! ## §1. Texts between two characters. -/

namespace Span

/-- A text that has the property with one more character before it. -/
def shifted (P : Span) (before : Option Char) (c : Char) : Span := fun _ text after =>
  P before (c :: text) after

variable {P Q : Span} {before after : Option Char} {c : Char} {text : List Char}

theorem andThen_nil_iff : P.andThen Q before [] after ↔ P before [] after ∧ Q before [] after := by
  constructor
  · intro h
    obtain ⟨first, second, heq, hP, hQ⟩ := h
    obtain ⟨rfl, rfl⟩ := List.append_eq_nil_iff.mp heq.symm
    exact ⟨hP, hQ⟩
  · intro h
    exact ⟨[], [], rfl, h.1, h.2⟩

/-- The first character belongs to the second part if the first one is empty, else to the
first. -/
theorem andThen_cons_iff :
    P.andThen Q before (c :: text) after ↔
      (P before [] (some c) ∧ Q before (c :: text) after) ∨
        (P.shifted before c).andThen Q (some c) text after := by
  -- a first part that starts with the character ends as what is left of it does
  have hlast : ∀ first : List Char,
      (c :: first).getLast?.or before = first.getLast?.or (some c) := by
    intro first
    rw [List.getLast?_cons]
    cases first.getLast? <;> rfl
  constructor
  · intro h
    obtain ⟨first, second, heq, hP, hQ⟩ := h
    cases first with
    | nil =>
        obtain rfl : c :: text = second := heq
        exact .inl ⟨hP, hQ⟩
    | cons d first =>
        obtain ⟨rfl, rfl⟩ := List.cons.inj heq
        rw [hlast] at hQ
        exact .inr ⟨first, second, rfl, hP, hQ⟩
  · intro h
    rcases h with ⟨hP, hQ⟩ | ⟨first, second, rfl, hP, hQ⟩
    · exact ⟨[], c :: text, rfl, hP, hQ⟩
    · rw [← hlast] at hQ
      exact ⟨c :: first, second, rfl, hP, hQ⟩

theorem repeated_nil_iff (n : Nat) : P.repeated n before [] after ↔ n = 0 ∨ P before [] after := by
  induction n with
  | zero => simp [repeated]
  | succ n ih =>
      unfold repeated
      rw [andThen_nil_iff, ih]
      simp only [Nat.succ_ne_zero, false_or]
      exact ⟨fun h => h.1, fun h => ⟨h, .inr h⟩⟩

/-- The first character belongs to one of the parts, and all parts before it are empty. -/
theorem repeated_cons_iff (n : Nat) :
    P.repeated n before (c :: text) after ↔
      ∃ skipped left, n = skipped + 1 + left ∧ (skipped = 0 ∨ P before [] (some c)) ∧
        (P.shifted before c).andThen (P.repeated left) (some c) text after := by
  induction n with
  | zero =>
      constructor
      · intro h
        cases h
      · intro h
        obtain ⟨skipped, left, heq, -⟩ := h
        omega
  | succ n ih =>
      show P.andThen (P.repeated n) before (c :: text) after ↔ _
      rw [andThen_cons_iff, ih]
      constructor
      · intro h
        rcases h with ⟨hempty, skipped, left, rfl, -, hrest⟩ | hrest
        · exact ⟨skipped + 1, left, by omega, .inr hempty, hrest⟩
        · exact ⟨0, n, by omega, .inl rfl, hrest⟩
      · intro h
        obtain ⟨skipped, left, heq, hskipped, hrest⟩ := h
        cases skipped with
        | zero =>
            obtain rfl : n = left := by omega
            exact .inr hrest
        | succ skipped =>
            have hempty := hskipped.resolve_left (Nat.succ_ne_zero skipped)
            exact .inl ⟨hempty, skipped, left, by omega, .inr hempty, hrest⟩

end Span

/-! ## §2. What an expression matches. -/

namespace Expr

/-- The expression matches a part of a text where it stands. -/
def Occurs (r : Expr) (text : List Char) : Prop :=
  ∃ front part back, text = front ++ part ++ back ∧ r.Matches front.getLast? part back.head?

/-- No repetition asks for more than it allows. -/
def Bounded : Expr → Prop
  | .empty => True
  | .chars _ => True
  | .look _ => True
  | .cat r s => r.Bounded ∧ s.Bounded
  | .alt r s => r.Bounded ∧ s.Bounded
  | .times r least most => r.Bounded ∧ ∀ m, most = some m → least ≤ m

section Equations

variable {r s : Expr} {before after : Option Char} {text : List Char}

theorem matches_cat_iff :
    (cat r s).Matches before text after ↔ r.Matches.andThen s.Matches before text after := Iff.rfl

theorem matches_alt_iff :
    (alt r s).Matches before text after ↔
      r.Matches before text after ∨ s.Matches before text after := Iff.rfl

theorem matches_times_iff {least : Nat} {most : Option Nat} :
    (times r least most).Matches before text after ↔
      ∃ n, least ≤ n ∧ (∀ m, most = some m → n ≤ m) ∧ r.Matches.repeated n before text after :=
  Iff.rfl

/-- Any number of characters of a set. -/
theorem matches_any_iff {set : CharSet} :
    (times (.chars set) 0 none).Matches before text after ↔
      ∀ c ∈ text, set.contains c = true := by
  have hcount : ∀ (n : Nat) (before : Option Char) (text : List Char),
      (chars set).Matches.repeated n before text after ↔
        text.length = n ∧ ∀ c ∈ text, set.contains c = true := by
    intro n
    induction n with
    | zero =>
        intro before text
        rw [List.length_eq_zero_iff]
        constructor
        · rintro rfl
          exact ⟨rfl, nofun⟩
        · exact fun h => h.1
    | succ n ih =>
        intro before text
        constructor
        · rintro ⟨_, second, rfl, ⟨c, hc, rfl⟩, hrest⟩
          obtain ⟨rfl, hall⟩ := (ih _ _).mp hrest
          exact ⟨rfl, List.forall_mem_cons.mpr ⟨hc, hall⟩⟩
        · rintro ⟨hlength, hall⟩
          obtain ⟨c, second, rfl⟩ := List.exists_cons_of_length_eq_add_one hlength
          obtain ⟨hc, hall⟩ := List.forall_mem_cons.mp hall
          exact ⟨[c], second, rfl, ⟨c, hc, rfl⟩, (ih _ _).mpr ⟨Nat.succ.inj hlength, hall⟩⟩
  rw [matches_times_iff]
  constructor
  · rintro ⟨n, -, -, hrepeated⟩
    exact ((hcount n before text).mp hrepeated).2
  · intro hall
    exact ⟨text.length, Nat.zero_le _, nofun, (hcount _ before text).mpr ⟨rfl, hall⟩⟩

/-- What comes before a repetition comes before so many parts. -/
theorem andThen_times_iff {P : Span} {least : Nat} {most : Option Nat} :
    P.andThen (times r least most).Matches before text after ↔
      ∃ n, (least ≤ n ∧ ∀ m, most = some m → n ≤ m) ∧
        P.andThen (r.Matches.repeated n) before text after := by
  constructor
  · intro h
    obtain ⟨first, second, heq, hP, n, hleast, hmost, hrepeated⟩ := h
    exact ⟨n, ⟨hleast, hmost⟩, first, second, heq, hP, hrepeated⟩
  · intro h
    obtain ⟨n, ⟨hleast, hmost⟩, first, second, heq, hP, hrepeated⟩ := h
    exact ⟨first, second, heq, hP, n, hleast, hmost, hrepeated⟩

theorem followedBy_matches_iff (d : Expr) :
    (d.followedBy s).Matches before text after ↔
      d.Matches.andThen s.Matches before text after := by
  cases d with
  | empty =>
      constructor
      · intro h
        exact ⟨[], text, rfl, rfl, h⟩
      · intro h
        obtain ⟨_, second, rfl, rfl, hs⟩ := h
        exact hs
  | chars | look | cat | alt | times => exact Iff.rfl

theorem derivatives_times (r : Expr) (least : Nat) (most : Option Nat) (before : Option Char)
    (c : Char) :
    (times r least most).derivatives before c =
      if most = some 0 then []
      else (r.derivatives before c).map (·.followedBy
        (times r (if r.matchesEmpty before (some c) then 0 else least - 1) (most.map (· - 1)))) :=
  rfl

end Equations

/-- An expression matches the empty text exactly if its parts do. -/
theorem matches_nil_iff {r : Expr} (h : r.Bounded) (before after : Option Char) :
    r.Matches before [] after ↔ r.matchesEmpty before after = true := by
  induction r with
  | empty => simp [Matches, matchesEmpty]
  | chars set => simp [Matches, matchesEmpty]
  | look a => simp [Matches, matchesEmpty]
  | cat r s ihr ihs =>
      rw [matches_cat_iff, Span.andThen_nil_iff, ihr h.1, ihs h.2, ← Bool.and_eq_true]
      rfl
  | alt r s ihr ihs =>
      rw [matches_alt_iff, ihr h.1, ihs h.2, ← Bool.or_eq_true]
      rfl
  | times r least most ih =>
      unfold matchesEmpty
      rw [matches_times_iff, Bool.or_eq_true, decide_eq_true_eq, ← ih h.1]
      constructor
      · intro hmatch
        obtain ⟨n, hleast, -, hrepeated⟩ := hmatch
        rcases (Span.repeated_nil_iff n).mp hrepeated with rfl | hempty
        · exact .inl (Nat.le_zero.mp hleast)
        · exact .inr hempty
      · -- the least number of repetitions will do
        intro hempty
        exact ⟨least, Nat.le_refl _, h.2, (Span.repeated_nil_iff least).mpr hempty⟩

/-! ## §3. Partial derivatives. -/

/-- What matches behind a character, told by expressions, is followed by what it was
followed by. -/
theorem shifted_andThen_iff {P : Span} {before : Option Char} {c : Char} {ds : List Expr}
    (h : ∀ text after, P before (c :: text) after ↔ ∃ d ∈ ds, d.Matches (some c) text after)
    (s : Expr) (text : List Char) (after : Option Char) :
    (P.shifted before c).andThen s.Matches (some c) text after ↔
      ∃ d ∈ ds.map (·.followedBy s), d.Matches (some c) text after := by
  constructor
  · intro hthen
    obtain ⟨first, second, heq, hP, hs⟩ := hthen
    obtain ⟨d, hd, hfirst⟩ := (h first _).mp hP
    exact ⟨d.followedBy s, List.mem_map_of_mem hd,
      (followedBy_matches_iff d).mpr ⟨first, second, heq, hfirst, hs⟩⟩
  · intro hexists
    obtain ⟨_, hmem, hmatch⟩ := hexists
    obtain ⟨d, hd, rfl⟩ := List.mem_map.mp hmem
    obtain ⟨first, second, heq, hfirst, hs⟩ := (followedBy_matches_iff d).mp hmatch
    exact ⟨first, second, heq, (h first _).mpr ⟨d, hd, hfirst⟩, hs⟩

/-- How many repetitions are left after the one with the first character: those before it
that were empty may make up for what is still missing. -/
theorem exists_skipped_iff {least : Nat} {most : Option Nat}
    (hbound : ∀ m, most = some m → least ≤ m) (nullable : Bool) (left : Nat) :
    (∃ skipped, least ≤ skipped + 1 + left ∧ (∀ m, most = some m → skipped + 1 + left ≤ m) ∧
        (skipped = 0 ∨ nullable = true)) ↔
      most ≠ some 0 ∧ (if nullable then 0 else least - 1) ≤ left ∧
        ∀ m, most.map (· - 1) = some m → left ≤ m := by
  constructor
  · intro h
    obtain ⟨skipped, hleast, hmost, hnullable⟩ := h
    refine ⟨?_, ?_, ?_⟩
    · intro hzero
      have := hmost 0 hzero
      omega
    · split
      · exact Nat.zero_le _
      · have : skipped = 0 := by simp_all
        omega
    · intro m hm
      obtain ⟨k, hk, rfl⟩ := Option.map_eq_some_iff.mp hm
      have := hmost k hk
      omega
  · intro h
    obtain ⟨hzero, hleast, hmost⟩ := h
    have hroom : ∀ m, most = some m → left + 1 ≤ m := by
      intro m hm
      have hleft := hmost (m - 1) (by rw [hm]; rfl)
      have hm0 : m ≠ 0 := fun h0 => hzero (by rw [hm, h0])
      omega
    cases nullable with
    | true =>
        refine ⟨least - (left + 1), by omega, ?_, .inr rfl⟩
        intro m hm
        have := hroom m hm
        have := hbound m hm
        omega
    | false =>
        simp only [Bool.false_eq_true, if_false] at hleast
        refine ⟨0, by omega, ?_, .inl rfl⟩
        intro m hm
        have := hroom m hm
        omega

/-- **An expression matches a text exactly if one of its partial derivatives by the first
character matches the others.** -/
theorem matches_cons_iff {r : Expr} (h : r.Bounded) (before : Option Char) (c : Char) :
    ∀ (text : List Char) (after : Option Char),
      r.Matches before (c :: text) after ↔
        ∃ d ∈ r.derivatives before c, d.Matches (some c) text after := by
  induction r with
  | empty => intro text after; simp [Matches, derivatives]
  | look a => intro text after; simp [Matches, derivatives]
  | chars set =>
      intro text after
      unfold derivatives
      cases hc : set.contains c <;> simp [Matches, hc]
  | alt r s ihr ihs =>
      intro text after
      unfold derivatives
      rw [matches_alt_iff, ihr h.1, ihs h.2]
      simp only [List.mem_append, or_and_right, exists_or]
  | cat r s ihr ihs =>
      intro text after
      unfold derivatives
      rw [matches_cat_iff, Span.andThen_cons_iff, matches_nil_iff h.1,
        shifted_andThen_iff (ihr h.1), ihs h.2]
      -- the second part is only looked at where the first one may be left out
      dsimp only
      cases r.matchesEmpty before (some c) with
      | false => simp
      | true => simp only [true_and, if_true, List.mem_append, or_and_right, exists_or, or_comm]
  | times r least most ih =>
      intro text after
      have hcount := exists_skipped_iff h.2 (r.matchesEmpty before (some c))
      calc (times r least most).Matches before (c :: text) after
          ↔ ∃ left, (∃ skipped, least ≤ skipped + 1 + left ∧
              (∀ m, most = some m → skipped + 1 + left ≤ m) ∧
                (skipped = 0 ∨ r.matchesEmpty before (some c) = true)) ∧
              (r.Matches.shifted before c).andThen (r.Matches.repeated left) (some c) text
                after := by
            simp only [matches_times_iff, Span.repeated_cons_iff, matches_nil_iff h.1]
            constructor
            · intro hmatch
              obtain ⟨n, hleast, hmost, skipped, left, rfl, hskipped, hrest⟩ := hmatch
              exact ⟨left, ⟨skipped, hleast, hmost, hskipped⟩, hrest⟩
            · intro hmatch
              obtain ⟨left, ⟨skipped, hleast, hmost, hskipped⟩, hrest⟩ := hmatch
              exact ⟨_, hleast, hmost, skipped, left, rfl, hskipped, hrest⟩
        _ ↔ most ≠ some 0 ∧ (r.Matches.shifted before c).andThen
              (times r (if r.matchesEmpty before (some c) then 0 else least - 1)
                (most.map (· - 1))).Matches (some c) text after := by
            rw [andThen_times_iff]
            simp only [hcount, and_assoc, exists_and_left]
        _ ↔ ∃ d ∈ (times r least most).derivatives before c,
              d.Matches (some c) text after := by
            rw [shifted_andThen_iff (ih h.1), derivatives_times]
            by_cases hzero : most = some 0 <;> simp [hzero]

/-- Partial derivatives ask for no more than they allow. -/
theorem bounded_of_mem_derivatives {r : Expr} (h : r.Bounded) {before : Option Char} {c : Char} :
    ∀ d ∈ r.derivatives before c, d.Bounded := by
  have hfollowed : ∀ {ds : List Expr} {s : Expr}, (∀ d ∈ ds, d.Bounded) → s.Bounded →
      ∀ d ∈ ds.map (·.followedBy s), d.Bounded := by
    intro ds s hds hs d hd
    obtain ⟨e, he, rfl⟩ := List.mem_map.mp hd
    have hbounded := hds e he
    cases e with
    | empty => exact hs
    | chars | look | cat | alt | times => exact ⟨hbounded, hs⟩
  induction r with
  | empty => intro d hd; cases hd
  | look a => intro d hd; cases hd
  | chars set =>
      intro d hd
      unfold derivatives at hd
      split at hd
      · rw [List.mem_singleton.mp hd]
        exact trivial
      · cases hd
  | alt r s ihr ihs =>
      intro d hd
      rcases List.mem_append.mp hd with hd | hd
      · exact ihr h.1 d hd
      · exact ihs h.2 d hd
  | cat r s ihr ihs =>
      intro d hd
      unfold derivatives at hd
      dsimp only at hd
      split at hd
      · rcases List.mem_append.mp hd with hd | hd
        · exact hfollowed (ihr h.1) h.2 d hd
        · exact ihs h.2 d hd
      · exact hfollowed (ihr h.1) h.2 d hd
  | times r least most ih =>
      intro d hd
      rw [derivatives_times] at hd
      split at hd
      · cases hd
      · refine hfollowed (ih h.1) (show Bounded (times _ _ _) from ⟨h.1, ?_⟩) d hd
        intro m hm
        obtain ⟨k, hk, rfl⟩ := Option.map_eq_some_iff.mp hm
        have := h.2 k hk
        split <;> omega

/-! ## §4. Searching. -/

/-- What a search with some expressions under way looks for: one of them from here on, or
the expression anew further on. -/
def FoundFrom (r : Expr) (before : Option Char) (live : List Expr) (text : List Char) : Prop :=
  (∃ d ∈ live, ∃ part back, text = part ++ back ∧ d.Matches before part back.head?) ∨
    ∃ c front part back, text = c :: front ++ part ++ back ∧
      r.Matches (c :: front).getLast? part back.head?

/-- One step of a search: what is under way ends here, or its partial derivatives are under
way behind the character, along with the expression itself. -/
theorem foundFrom_cons_iff {r : Expr} {live : List Expr} (hlive : ∀ d ∈ live, d.Bounded)
    (before : Option Char) (c : Char) (rest : List Char) :
    r.FoundFrom before live (c :: rest) ↔
      (∃ d ∈ live, d.matchesEmpty before (some c) = true) ∨
        r.FoundFrom (some c) (r :: live.flatMap (·.derivatives before c)) rest := by
  constructor
  · intro h
    rcases h with ⟨d, hd, part, back, heq, hmatch⟩ | ⟨b, front, part, back, heq, hmatch⟩
    · cases part with
      | nil =>
          obtain rfl : c :: rest = back := heq
          exact .inl ⟨d, hd, (matches_nil_iff (hlive d hd) before (some c)).mp hmatch⟩
      | cons b part =>
          obtain ⟨rfl, rfl⟩ := List.cons.inj heq
          obtain ⟨e, he, hmatch⟩ := (matches_cons_iff (hlive d hd) before c part _).mp hmatch
          have hmem : e ∈ live.flatMap (·.derivatives before c) :=
            List.mem_flatMap.mpr ⟨d, hd, he⟩
          exact .inr (.inl ⟨e, List.mem_cons_of_mem r hmem, part, back, rfl, hmatch⟩)
    · obtain ⟨rfl, rfl⟩ := List.cons.inj heq
      cases front with
      | nil => exact .inr (.inl ⟨r, List.mem_cons_self, part, back, rfl, hmatch⟩)
      | cons b front =>
          rw [List.getLast?_cons_cons] at hmatch
          exact .inr (.inr ⟨b, front, part, back, rfl, hmatch⟩)
  · intro h
    rcases h with ⟨d, hd, hempty⟩ | ⟨e, he, part, back, rfl, hmatch⟩ |
      ⟨b, front, part, back, rfl, hmatch⟩
    · exact .inl ⟨d, hd, [], c :: rest, rfl, (matches_nil_iff (hlive d hd) before _).mpr hempty⟩
    · rcases List.mem_cons.mp he with rfl | he
      · exact .inr ⟨c, [], part, back, rfl, hmatch⟩
      · obtain ⟨d, hd, he⟩ := List.mem_flatMap.mp he
        exact .inl ⟨d, hd, c :: part, back, rfl,
          (matches_cons_iff (hlive d hd) before c part _).mpr ⟨e, he, hmatch⟩⟩
    · exact .inr ⟨c, b :: front, part, back, rfl, by rw [List.getLast?_cons_cons]; exact hmatch⟩

theorem searchFrom_iff {r : Expr} (hr : r.Bounded) (text : List Char) :
    ∀ (before : Option Char) (live : List Expr), (∀ d ∈ live, d.Bounded) →
      (r.searchFrom before live text = true ↔ r.FoundFrom before live text) := by
  induction text with
  | nil =>
      intro before live hlive
      unfold searchFrom FoundFrom
      rw [List.any_eq_true]
      constructor
      · intro h
        obtain ⟨d, hd, hempty⟩ := h
        exact .inl ⟨d, hd, [], [], rfl, (matches_nil_iff (hlive d hd) before none).mpr hempty⟩
      · intro h
        rcases h with ⟨d, hd, part, back, heq, hmatch⟩ | ⟨c, front, part, back, heq, -⟩
        · obtain ⟨rfl, rfl⟩ := List.append_eq_nil_iff.mp heq.symm
          exact ⟨d, hd, (matches_nil_iff (hlive d hd) before none).mp hmatch⟩
        · cases heq
  | cons c rest ih =>
      intro before live hlive
      have hnext : ∀ d ∈ r :: live.flatMap (·.derivatives before c), d.Bounded := by
        intro d hd
        rcases List.mem_cons.mp hd with rfl | hd
        · exact hr
        · obtain ⟨e, he, hd⟩ := List.mem_flatMap.mp hd
          exact bounded_of_mem_derivatives (hlive e he) d hd
      unfold searchFrom
      rw [Bool.or_eq_true, List.any_eq_true, foundFrom_cons_iff hlive,
        ih (some c) _ fun d hd => hnext d (List.mem_eraseDups.mp hd)]
      -- what is under way twice is looked for once
      unfold FoundFrom
      simp only [List.mem_eraseDups]

/-- **A search finds an expression exactly if it matches a part of the text where it
stands.** -/
theorem search_iff {r : Expr} (h : r.Bounded) (text : List Char) :
    r.search text = true ↔ r.Occurs text := by
  unfold search
  rw [searchFrom_iff h text none [r] (by simpa using h)]
  unfold FoundFrom Occurs
  constructor
  · intro hfound
    rcases hfound with ⟨d, hd, part, back, heq, hmatch⟩ | ⟨c, front, part, back, heq, hmatch⟩
    · obtain rfl := List.mem_singleton.mp hd
      exact ⟨[], part, back, heq, hmatch⟩
    · exact ⟨c :: front, part, back, heq, hmatch⟩
  · intro hoccurs
    obtain ⟨front, part, back, heq, hmatch⟩ := hoccurs
    cases front with
    | nil => exact .inl ⟨r, List.mem_singleton_self r, part, back, heq, hmatch⟩
    | cons c front => exact .inr ⟨c, front, part, back, heq, hmatch⟩

end Expr

end CiPipeline.Regex
