/-
  CiPipeline.Proofs.Ref.Globs
  ───────────────────────────
  **A ref is protected exactly if a glob covers its name.**

  What a glob covers is said of its characters alone (`Glob.Covers`).  The regular
  expression that is written for a glob is a plain pattern, with a piece for each of its
  characters between the two ends of the text (`written_eq`), for an occurrence that is
  replaced in the escaped text is a star and nothing else (`replaced_escape`).  So it occurs
  in the names that the glob covers, by whatever is relied on of the engine
  (`occurs_iff_covers`).  Main statement: `ProtectedRefs.protects_iff_covers`.
-/
import CiPipeline.Proofs.Regex.Plain
import CiPipeline.Ref.Protection

namespace CiPipeline

open Regex (Engine Piece isMeta)

namespace Glob

/-! ## §1. What a glob covers. -/

/-- A glob covers a name: a star covers any run of characters of one line, and every other
character itself. -/
inductive Covers : List Char → List Char → Prop where
  | nil : Covers [] []
  | star {run glob name : List Char} (hrun : ∀ c ∈ run, c ≠ '\n') (h : Covers glob name) :
      Covers ('*' :: glob) (run ++ name)
  | char {c : Char} {glob name : List Char} (hc : c ≠ '*') (h : Covers glob name) :
      Covers (c :: glob) (c :: name)

theorem covers_nil_iff {name : List Char} : Covers [] name ↔ name = [] := by
  constructor
  · intro h
    cases h
    rfl
  · rintro rfl
    exact .nil

theorem covers_star_iff {glob name : List Char} :
    Covers ('*' :: glob) name ↔
      ∃ run rest, name = run ++ rest ∧ (∀ c ∈ run, c ≠ '\n') ∧ Covers glob rest := by
  constructor
  · intro h
    cases h with
    | star hrun h => exact ⟨_, _, rfl, hrun, h⟩
    | char hc => exact absurd rfl hc
  · rintro ⟨run, rest, rfl, hrun, h⟩
    exact .star hrun h

theorem covers_char_iff {c : Char} (hc : c ≠ '*') {glob name : List Char} :
    Covers (c :: glob) name ↔ ∃ rest, name = c :: rest ∧ Covers glob rest := by
  constructor
  · intro h
    cases h with
    | star => exact absurd rfl hc
    | char _ h => exact ⟨_, rfl, h⟩
  · rintro ⟨rest, rfl, h⟩
    exact .char hc h

/-! ## §2. What is written for a glob. -/

/-- What a character of a glob is written as. -/
def piece (c : Char) : Piece :=
  if c = '*' then .run else .text [c]

/-- What a glob is written as, between the ends of the text. -/
def pieces (glob : List Char) : List Piece :=
  .textStart :: (glob.map piece ++ [.textEnd])

theorem piece_char {c : Char} (hc : c ≠ '*') : piece c = .text [c] :=
  if_neg hc

theorem written_piece {c : Char} (hc : c ≠ '*') :
    (piece c).written = if isMeta c then ['\\', c] else [c] := by
  rw [piece_char hc]
  exact List.append_nil _

/-- A star of an escaped text has its backslash before it, so none comes first. -/
theorem head?_escape_ne (cs : List Char) : (Regex.escape cs).head? ≠ some '*' := by
  have hnil : ([] : List Char).head? ≠ some '*' := nofun
  have hne := Regex.head?_escape_append_ne (by decide) (by decide) cs hnil
  rw [List.append_nil] at hne
  exact hne

/-- A character that starts no occurrence stays. -/
theorem replaceFrom_cons {c : Char} {rest : List Char} (h : c ≠ '\\' ∨ rest.head? ≠ some '*')
    (new : List Char) :
    Text.replaceFrom ['\\', '*'] new 0 (c :: rest) =
      c :: Text.replaceFrom ['\\', '*'] new 0 rest := by
  have hnot : ¬(['\\', '*'].isPrefixOf (c :: rest) = true) := by
    intro hprefix
    obtain ⟨after, heq⟩ := List.isPrefixOf_iff_prefix.mp hprefix
    obtain ⟨rfl, rfl⟩ := List.cons.inj heq
    rcases h with h | h
    · exact h rfl
    · exact h rfl
  rw [Text.replaceFrom, if_neg hnot]

/-- **The occurrences that are replaced in an escaped text are its escaped stars**: the
backslash of an escaped backslash is never taken for that of a star behind it. -/
theorem replaced_escape (cs : List Char) :
    Text.replaced ['\\', '*'] ['.', '*'] (Regex.escape cs) =
      (cs.map piece).flatMap Piece.written := by
  unfold Text.replaced
  induction cs with
  | nil => rfl
  | cons c cs ih =>
      have hhead := head?_escape_ne cs
      unfold Regex.escape at ih hhead ⊢
      rw [List.flatMap_cons, List.map_cons, List.flatMap_cons, ← ih]
      by_cases hstar : c = '*'
      · subst hstar
        rfl
      rw [written_piece hstar]
      cases hmeta : isMeta c with
      | true =>
          -- the backslash is not followed by a star, and neither is the character itself
          simp only [if_true, List.cons_append, List.nil_append]
          rw [replaceFrom_cons (.inr (by simpa using hstar)), replaceFrom_cons (.inr hhead)]
      | false =>
          have hback : c ≠ '\\' := by
            rintro rfl
            exact absurd hmeta (by decide)
          simp only [Bool.false_eq_true, if_false, List.singleton_append]
          exact replaceFrom_cons (.inl hback) _

/-- **What is written for a glob is a plain pattern.** -/
theorem written_eq (pattern : String) :
    written pattern = Piece.pattern (pieces pattern.toList) := by
  unfold written Piece.pattern pieces
  rw [replaced_escape, List.flatMap_cons, List.flatMap_append]
  rfl

/-! ## §3. What it matches. -/

/-- The characters of a glob match what they cover, at the end of the text only. -/
theorem allMatch_toEnd_iff (cs : List Char) : ∀ front part back : List Char,
    Piece.AllMatch (cs.map piece ++ [.textEnd]) front part back ↔ Covers cs part ∧ back = [] := by
  induction cs with
  | nil =>
      intro front part back
      rw [covers_nil_iff]
      constructor
      · rintro ⟨first, rest, rfl, ⟨rfl, hend⟩, hrest⟩
        obtain rfl : rest = [] := hrest
        exact ⟨rfl, hend⟩
      · rintro ⟨rfl, rfl⟩
        exact ⟨[], [], rfl, ⟨rfl, rfl⟩, rfl⟩
  | cons c cs ih =>
      intro front part back
      rw [List.map_cons, List.cons_append]
      unfold Piece.AllMatch
      simp only [ih]
      by_cases hstar : c = '*'
      · subst hstar
        rw [covers_star_iff]
        constructor
        · rintro ⟨run, rest, rfl, hrun, hcovers, hback⟩
          exact ⟨⟨run, rest, rfl, hrun, hcovers⟩, hback⟩
        · rintro ⟨⟨run, rest, rfl, hrun, hcovers⟩, hback⟩
          exact ⟨run, rest, rfl, hrun, hcovers, hback⟩
      · rw [covers_char_iff hstar, piece_char hstar]
        constructor
        · rintro ⟨first, rest, rfl, hfirst, hcovers, hback⟩
          obtain rfl : first = [c] := hfirst
          exact ⟨⟨rest, rfl, hcovers⟩, hback⟩
        · rintro ⟨⟨rest, rfl, hcovers⟩, hback⟩
          exact ⟨[c], rest, rfl, rfl, hcovers, hback⟩

/-- The pieces of a glob match nothing but the whole of a text. -/
theorem allMatch_pieces_iff (cs front part back : List Char) :
    Piece.AllMatch (pieces cs) front part back ↔ front = [] ∧ Covers cs part ∧ back = [] := by
  constructor
  · rintro ⟨first, rest, rfl, ⟨rfl, hstart⟩, hmatch⟩
    exact ⟨hstart, (allMatch_toEnd_iff cs _ _ _).mp hmatch⟩
  · rintro ⟨rfl, hmatch⟩
    exact ⟨[], part, rfl, ⟨rfl, rfl⟩, (allMatch_toEnd_iff cs _ _ _).mpr hmatch⟩

section

variable [Engine] [Engine.Lawful]

/-- **What is written for a glob occurs in the names that the glob covers**: it stands between
the two ends of the text. -/
theorem occurs_iff_covers {pattern : String} {program : Engine.Program}
    (h : Engine.read? (written pattern) = some program) (text : List Char) :
    Engine.Occurs program text ↔ Covers pattern.toList text := by
  rw [written_eq] at h
  unfold Engine.Occurs
  simp only [Engine.Lawful.matches_iff h, allMatch_pieces_iff]
  constructor
  · rintro ⟨_, part, _, rfl, rfl, hcovers, rfl⟩
    rw [List.nil_append, List.append_nil]
    exact hcovers
  · intro hcovers
    exact ⟨[], text, [], (List.append_nil text).symm, rfl, hcovers, rfl⟩

/-- A glob matches the names that it covers. -/
theorem isMatch_iff_covers (g : Glob) (name : String) :
    g.isMatch name = true ↔ Covers g.pattern.toList name.toList := by
  unfold isMatch
  rw [Engine.Lawful.finds_iff g.compiled, occurs_iff_covers g.compiled]

end

end Glob

/-! ## §4. Protected refs. -/

namespace ProtectedRefs

section

variable [Engine]

/-- What is protected once all of some patterns have been registered, one after the other;
nothing if one of them is refused. -/
def registered? (patterns : List RefPattern) : Option ProtectedRefs :=
  patterns.foldlM protecting? none

/-- A pattern is registered exactly if what is written for it is read. -/
theorem protecting?_isSome_iff (p : ProtectedRefs) (r : RefPattern) :
    (p.protecting? r).isSome = true ↔ (Engine.read? (Glob.written r.pattern)).isSome = true := by
  unfold protecting? Glob.ofPattern?
  rw [Option.isSome_map]
  split <;> simp_all

theorem foldlM_isSome_iff (patterns : List RefPattern) :
    ∀ p : ProtectedRefs, (patterns.foldlM protecting? p).isSome = true ↔
      ∀ r ∈ patterns, (Engine.read? (Glob.written r.pattern)).isSome = true := by
  induction patterns with
  | nil => intro p; simp
  | cons r patterns ih =>
      intro p
      rw [List.foldlM_cons, List.forall_mem_cons, ← protecting?_isSome_iff p r]
      cases hstep : p.protecting? r with
      | none => simp
      | some p₁ => simpa using ih p₁

variable [Engine.Lawful]

/-- One more pattern protects, besides what is protected already, the refs of its kind that
it covers. -/
theorem protection_protecting? {p p' : ProtectedRefs} {r : RefPattern}
    (h : p.protecting? r = some p') (q : RefQuery) :
    p'.protection q = true ↔ p.protection q = true ∨
      (r.tag = q.tag ∧ Glob.Covers r.pattern.toList q.refName.toList) := by
  obtain ⟨g, hg, rfl⟩ := Option.map_eq_some_iff.mp h
  have hpattern : g.pattern = r.pattern := by
    unfold Glob.ofPattern? at hg
    split at hg
    · cases hg
      rfl
    · cases hg
  rw [← hpattern, ← Glob.isMatch_iff_covers]
  unfold protection
  -- a question about the other kind does not see the new glob
  cases htag : r.tag <;> cases hq : q.tag <;> simp

/-- More patterns protect, besides what is protected already, the refs that they cover. -/
theorem protection_foldlM (patterns : List RefPattern) :
    ∀ {p p' : ProtectedRefs}, patterns.foldlM protecting? p = some p' → ∀ q : RefQuery,
      (p'.protection q = true ↔ p.protection q = true ∨
        ∃ r ∈ patterns, r.tag = q.tag ∧ Glob.Covers r.pattern.toList q.refName.toList) := by
  induction patterns with
  | nil =>
      intro p p' h q
      obtain rfl : p = p' := Option.some.inj h
      simp
  | cons r patterns ih =>
      intro p p' h q
      rw [List.foldlM_cons] at h
      obtain ⟨p₁, hstep, hrest⟩ := Option.bind_eq_some_iff.mp h
      rw [ih hrest q, protection_protecting? hstep q, or_assoc]
      simp only [List.exists_mem_cons_iff]

/-- **A ref is protected exactly if one of the patterns registered for its kind covers its
whole name**; and patterns are registered exactly if what is written for each of them is
read. -/
theorem protects_iff_covers (patterns : List RefPattern) :
    ((registered? patterns).isSome = true ↔
      ∀ r ∈ patterns, (Engine.read? (Glob.written r.pattern)).isSome = true) ∧
    ∀ p, registered? patterns = some p → ∀ q : RefQuery,
      (p.protection q = true ↔
        ∃ r ∈ patterns, r.tag = q.tag ∧ Glob.Covers r.pattern.toList q.refName.toList) := by
  refine ⟨foldlM_isSome_iff patterns none, ?_⟩
  intro p h q
  rw [protection_foldlM patterns h q]
  unfold none protection
  simp

end

/-- A dot, a letter beyond ASCII and a backslash before a star stand for themselves. -/
def samplePatterns : List RefPattern :=
  [⟨false, "release-*.x"⟩, ⟨true, "v*"⟩, ⟨false, "b\\*ü"⟩]

/-- The patterns of the sample are registered.  The backslash is covered by itself and the
star behind it by what follows, but a line break by no star. -/
theorem protects_iff_covers_sample : ∃ p, registered? samplePatterns = some p ∧
    p.protection ⟨⟨1⟩, "b\\-\\ü", false⟩ = true ∧ p.protection ⟨⟨1⟩, "v1\n", true⟩ = false := by
  obtain ⟨hsome, hprotects⟩ := protects_iff_covers samplePatterns
  obtain ⟨p, hp⟩ := Option.isSome_iff_exists.mp (hsome.mpr (by decide +kernel))
  refine ⟨p, hp, ?_, ?_⟩
  · refine (hprotects p hp _).mpr ⟨⟨false, "b\\*ü"⟩, by decide, rfl, ?_⟩
    exact .char (by decide) (.char (by decide)
      (.star (show ∀ c ∈ ['-', '\\'], c ≠ '\n' by simp) (.char (by decide) .nil)))
  · rw [← Bool.not_eq_true, hprotects p hp]
    rintro ⟨r, hr, htag, hcovers⟩
    have honly : ∀ r ∈ samplePatterns, r.tag = true → r = ⟨true, "v*"⟩ := by decide
    obtain rfl := honly r hr htag
    obtain ⟨rest, heq, hstar⟩ := (Glob.covers_char_iff (by decide)).mp hcovers
    obtain ⟨run, _, hrun, hall, hend⟩ := Glob.covers_star_iff.mp hstar
    obtain rfl := Glob.covers_nil_iff.mp hend
    rw [List.append_nil] at hrun
    subst hrun
    obtain rfl : ['1', '\n'] = rest := (List.cons.inj heq).2
    exact hall '\n' (by decide) rfl

end ProtectedRefs

end CiPipeline
