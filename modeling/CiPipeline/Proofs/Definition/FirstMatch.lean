/-
  CiPipeline.Proofs.Definition.FirstMatch
  ───────────────────────────────────────
  **The first rule that stops the search decides.**

  A rule stops the search if it is for every ref, if its pattern occurs in the name of the
  ref, or if its pattern cannot be read; what it then says depends on nothing else
  (`Rule.Stops`).  Rules are judged as the relation `Rule.Judged` tells, which leaves no
  choice and always has an answer.  Main statement: `Rule.judge_eq_iff`.
-/
import CiPipeline.Definition.Verdict
import CiPipeline.Proofs.Regex.Plain

namespace CiPipeline

open Regex (Engine)

/-! ## §1. Rules that stop the search. -/

/-- What becomes of a subject that is to run at a time. -/
inductive Verdict.Follows : When → Verdict → Prop where
  /-- What is to run never is left out. -/
  | never : Follows .never .excluded
  /-- Everything else runs at its time. -/
  | runs {w : When} (hw : w ≠ .never) : Follows w (.included w)

theorem Verdict.follows_iff {w : When} {v : Verdict} : Follows w v ↔ ofWhen w = v := by
  unfold ofWhen
  constructor
  · intro h
    cases h with
    | never => rfl
    | runs hw => exact if_neg hw
  · rintro rfl
    split
    case isTrue hw =>
      rw [hw]
      exact .never
    case isFalse hw => exact .runs hw

namespace Rule

section

variable [Engine]

/-- A rule stops the search for a ref, and this is what it says of a subject that has a time
to run of its own. -/
inductive Stops (refName : String) (own : When) : Rule → Verdict → Prop where
  /-- A rule without a pattern is for every ref. -/
  | everyRef {r : Rule} {v : Verdict} (hpattern : r.ifRef = none)
      (hv : Verdict.Follows (r.when.getD own) v) : Stops refName own r v
  /-- The pattern occurs somewhere in the name of the ref. -/
  | occurs {r : Rule} {pattern : String} {program : Engine.Program} {v : Verdict}
      (hpattern : r.ifRef = some pattern) (hread : Engine.read? pattern = some program)
      (hoccurs : Engine.Occurs program refName.toList) (hv : Verdict.Follows (r.when.getD own) v) :
      Stops refName own r v
  /-- The pattern is no regular expression. -/
  | unreadable {r : Rule} {pattern : String} (hpattern : r.ifRef = some pattern)
      (hread : Engine.read? pattern = none) : Stops refName own r (.invalidPattern pattern)

/-- The search goes past a rule. -/
def Passes (refName : String) (own : When) (r : Rule) : Prop :=
  ∀ v, ¬Stops refName own r v

section Search

variable [Engine.Lawful] {refName : String} {own : When} {r : Rule} {v : Verdict}
  {rest before : List Rule}

theorem stops_of_applies (happlies : r.applies? refName = some true)
    (hv : Verdict.Follows (r.when.getD own) v) : Stops refName own r v := by
  unfold applies? at happlies
  cases hpattern : r.ifRef with
  | none => exact .everyRef hpattern hv
  | some pattern =>
      rw [hpattern] at happlies
      obtain ⟨program, hread, hfound⟩ := Option.map_eq_some_iff.mp happlies
      exact .occurs hpattern hread ((Engine.Lawful.finds_iff hread _).mp hfound) hv

theorem passes_iff : Passes refName own r ↔ r.applies? refName = some false := by
  constructor
  · intro h
    cases happlies : r.applies? refName with
    | some applies =>
        cases applies with
        | false => rfl
        | true => exact absurd (stops_of_applies happlies (Verdict.follows_iff.mpr rfl)) (h _)
    | none =>
        -- only a pattern that cannot be read leaves it open whether the rule applies
        unfold applies? at happlies
        cases hpattern : r.ifRef with
        | none =>
            rw [hpattern] at happlies
            cases happlies
        | some pattern =>
            rw [hpattern] at happlies
            exact absurd (.unreadable hpattern (Option.map_eq_none_iff.mp happlies)) (h _)
  · intro happlies v hstops
    unfold applies? at happlies
    cases hstops with
    | everyRef hpattern => simp [hpattern] at happlies
    | occurs hpattern hread hoccurs =>
        have hfound := (Engine.Lawful.finds_iff hread refName.toList).mpr hoccurs
        simp [hpattern, hread, hfound] at happlies
    | unreadable hpattern hread => simp [hpattern, hread] at happlies

/-- A rule that stops the search is the last one that is looked at. -/
theorem Stops.firstMatch_eq (h : Stops refName own r v) (rest : List Rule) :
    firstMatch (r :: rest) refName own = v := by
  unfold firstMatch applies?
  cases h with
  | everyRef hpattern hv =>
      rw [hpattern]
      exact Verdict.follows_iff.mp hv
  | occurs hpattern hread hoccurs hv =>
      have hfound := (Engine.Lawful.finds_iff hread refName.toList).mpr hoccurs
      rw [hpattern]
      simp only [hread, Option.map_some, hfound]
      exact Verdict.follows_iff.mp hv
  | unreadable hpattern hread =>
      rw [hpattern]
      simp only [hread, Option.map_none, Option.getD_some]

/-- A rule that the search goes past says nothing. -/
theorem Passes.firstMatch_eq (h : Passes refName own r) (rest : List Rule) :
    firstMatch (r :: rest) refName own = firstMatch rest refName own := by
  conv_lhs => unfold firstMatch
  rw [passes_iff.mp h]

theorem firstMatch_append (h : ∀ b ∈ before, Passes refName own b) (rest : List Rule) :
    firstMatch (before ++ rest) refName own = firstMatch rest refName own := by
  induction before with
  | nil => rfl
  | cons b before ih =>
      obtain ⟨hb, hbefore⟩ := List.forall_mem_cons.mp h
      rw [List.cons_append, hb.firstMatch_eq, ih hbefore]

/-- Where some rule is given, the first one that stops the search is looked for. -/
theorem judge_append_cons (h : ∀ b ∈ before, Passes refName own b)
    (hstops : Stops refName own r v) (after : List Rule) :
    judge (before ++ r :: after) refName own = v := by
  unfold judge
  rw [if_neg (by simp), firstMatch_append h, hstops.firstMatch_eq]

/-! ## §2. What rules say. -/

/-- What rules say of a ref about a subject that has a time to run of its own. -/
inductive Judged (refName : String) (own : When) : List Rule → Verdict → Prop where
  /-- Without rules, the subject runs at its own time. -/
  | unruled {v : Verdict} (hv : Verdict.Follows own v) : Judged refName own [] v
  /-- If the search goes past all of the rules, the subject is left out. -/
  | passed {rules : List Rule} (hrules : rules ≠ [])
      (hpass : ∀ r ∈ rules, Passes refName own r) : Judged refName own rules .excluded
  /-- Else the first rule that stops the search decides. -/
  | first {before after : List Rule} {r : Rule} {v : Verdict}
      (hpass : ∀ b ∈ before, Passes refName own b) (hstops : Stops refName own r v) :
      Judged refName own (before ++ r :: after) v

theorem Judged.judge_eq {rules : List Rule} (h : Judged refName own rules v) :
    judge rules refName own = v := by
  cases h with
  | unruled hv => exact Verdict.follows_iff.mp hv
  | passed hrules hpass =>
      have hend := firstMatch_append hpass []
      rw [List.append_nil] at hend
      unfold judge
      rw [if_neg (by simpa using hrules), hend]
      rfl
  | first hpass hstops => exact judge_append_cons hpass hstops _

end Search

/-- Either the search goes past all rules, or one of them is the first to stop it. -/
theorem passed_or_first (refName : String) (own : When) (rules : List Rule) :
    (∀ r ∈ rules, Passes refName own r) ∨
      ∃ before r after v, rules = before ++ r :: after ∧
        (∀ b ∈ before, Passes refName own b) ∧ Stops refName own r v := by
  induction rules with
  | nil => exact .inl nofun
  | cons r rest ih =>
      by_cases hr : Passes refName own r
      · rcases ih with hrest | ⟨before, s, after, v, rfl, hbefore, hs⟩
        · exact .inl (List.forall_mem_cons.mpr ⟨hr, hrest⟩)
        · exact .inr ⟨r :: before, s, after, v, rfl, List.forall_mem_cons.mpr ⟨hr, hbefore⟩, hs⟩
      · obtain ⟨v, hv⟩ := not_forall_not.mp hr
        exact .inr ⟨[], r, rest, v, rfl, nofun, hv⟩

theorem exists_judged (refName : String) (own : When) (rules : List Rule) :
    ∃ v, Judged refName own rules v := by
  cases rules with
  | nil => exact ⟨_, .unruled (Verdict.follows_iff.mpr rfl)⟩
  | cons r rest =>
      rcases passed_or_first refName own (r :: rest) with hpass | ⟨before, s, after, v, heq, hbefore, hs⟩
      · exact ⟨_, .passed (List.cons_ne_nil r rest) hpass⟩
      · rw [heq]
        exact ⟨v, .first hbefore hs⟩

/-- What is said never lets a subject run never. -/
theorem Judged.ne_included_never {refName : String} {own : When} {rules : List Rule}
    {v : Verdict} (h : Judged refName own rules v) :
    v ≠ .included .never := by
  have hfollows : ∀ {w}, Verdict.Follows w v → v ≠ .included .never := by
    intro w hv
    cases hv with
    | never => nofun
    | runs hw =>
        intro heq
        exact hw (Verdict.included.inj heq)
  cases h with
  | unruled hv => exact hfollows hv
  | passed => nofun
  | first _ hstops =>
      cases hstops with
      | everyRef _ hv => exact hfollows hv
      | occurs _ _ _ hv => exact hfollows hv
      | unreadable => nofun

/-- **Rules say what the first one that stops the search says, and nothing else counts**: not
the rules behind it, whatever they are, and not those before it, which may be removed.  What
they say never lets a subject run never. -/
theorem judge_eq_iff [Engine.Lawful] (rules : List Rule) (refName : String) (own : When) :
    (∀ v, judge rules refName own = v ↔ Judged refName own rules v) ∧
    (∀ before r after v, rules = before ++ r :: after →
      (∀ b ∈ before, Passes refName own b) → Stops refName own r v →
        ∀ fewer others, fewer.Sublist before →
          judge (fewer ++ r :: others) refName own = judge rules refName own) ∧
    judge rules refName own ≠ .included .never := by
  obtain ⟨w, hw⟩ := exists_judged refName own rules
  refine ⟨?_, ?_, ?_⟩
  · intro v
    constructor
    · intro h
      rw [← h, hw.judge_eq]
      exact hw
    · exact Judged.judge_eq
  · rintro before r after v rfl hbefore hstops fewer others hfewer
    have hpass : ∀ b ∈ fewer, Passes refName own b := fun b hb => hbefore b (hfewer.mem hb)
    rw [judge_append_cons hpass hstops, judge_append_cons hbefore hstops]
  · rw [hw.judge_eq]
    exact hw.ne_included_never

end

/-- A rule for one branch, one for all branches of a kind, and one that cannot be read. -/
def sampleRules : List Rule :=
  [.onRef "^main$" .always, ⟨some "^rel", none⟩, .onRef "(" .manual]

/-- The second rule of the sample decides on a release, which then runs at its own time.  The
pattern behind it is not looked at, and the rule before it might as well not be there; on
other branches that pattern is reached, and cannot be read. -/
theorem judge_eq_iff_sample :
    judge sampleRules "release-1" .onFailure = .included .onFailure ∧
      judge [⟨some "^rel", none⟩] "release-1" .onFailure =
        judge sampleRules "release-1" .onFailure ∧
      judge sampleRules "feature" .onFailure = .invalidPattern "(" := by
  have hpass : ∀ b ∈ [Rule.onRef "^main$" .always], Passes "release-1" .onFailure b := by
    intro b hb
    rw [List.mem_singleton.mp hb, passes_iff]
    decide +kernel
  have hstops : Stops "release-1" .onFailure ⟨some "^rel", none⟩ (.included .onFailure) :=
    stops_of_applies (by decide +kernel) (.runs nofun)
  obtain ⟨hjudged, hothers, -⟩ := judge_eq_iff sampleRules "release-1" .onFailure
  refine ⟨?_, ?_, by decide +kernel⟩
  · exact (hjudged _).mpr (.first hpass hstops)
  · exact hothers _ _ _ _ rfl hpass hstops [] [] (List.nil_sublist _)

end Rule

end CiPipeline
