/-
  CiPipeline.Proofs.Regex.Reading
  ───────────────────────────────
  **Reading a pattern piece by piece.**

  One step of the reader takes one piece off the text, and each kind of piece has an
  equation of its own (§1).  A character with a meaning is read as itself behind a backslash
  (`readBranches_escaped`), every other one as it stands (`readBranches_plain`).  No
  repetition that is read asks for more than it allows (§2), so a pattern is searched for as
  it means, whatever it is: `search_iff_of_ofPattern?`.
-/
import CiPipeline.Proofs.Regex.Search
import CiPipeline.Regex.Meaning

namespace CiPipeline.Regex

/-! ## §1. The steps of the reader. -/

section Steps

variable {fuel : Nat} {names : List String} {branches items : List Tree} {rest : List Char}

theorem readBranches_end :
    readBranches (fuel + 1) ⟨[], false, names⟩ branches items =
      some (.ofBranches (Tree.ofItems items.reverse :: branches).reverse, ⟨[], false, names⟩) :=
  rfl

theorem readBranches_caret :
    readBranches (fuel + 1) ⟨'^' :: rest, false, names⟩ branches items =
      readBranches fuel ⟨rest, false, names⟩ branches (.anchor .caret :: items) := rfl

theorem readBranches_dollar :
    readBranches (fuel + 1) ⟨'$' :: rest, false, names⟩ branches items =
      readBranches fuel ⟨rest, false, names⟩ branches (.anchor .dollar :: items) := rfl

/-- A dot with a star behind it, unless a mark of laziness follows. -/
theorem readBranches_anything (h : rest.head? ≠ some '?') :
    readBranches (fuel + 2) ⟨'.' :: '*' :: rest, false, names⟩ branches items =
      readBranches fuel ⟨rest, false, names⟩ branches (.times .dot 0 none :: items) := by
  have hlazy : dropLazy rest = rest := if_neg h
  calc readBranches (fuel + 2) ⟨'.' :: '*' :: rest, false, names⟩ branches items
      = readBranches fuel ⟨dropLazy rest, false, names⟩ branches
          (.times .dot 0 none :: items) := rfl
    _ = _ := by rw [hlazy]

/-- A character that has a meaning of its own stands for itself behind a backslash. -/
theorem readBranches_escaped {c : Char} (h : isMeta c = true) :
    readBranches (fuel + 1) ⟨'\\' :: c :: rest, false, names⟩ branches items =
      readBranches fuel ⟨rest, false, names⟩ branches (.literal ⟨c, false⟩ :: items) := by
  have hescape : readEscape false (c :: rest) = some (.literal ⟨c, false⟩, rest) := by
    have hescapable : isEscapable c = true := by
      unfold isEscapable
      rw [h, Bool.true_or]
    rw [readEscape, if_pos hescapable]
    -- none of the letters that start an escape of their own has a meaning by itself
    all_goals
      rintro rfl
      exact absurd h (by decide)
  rw [readBranches]
  simp only [skip, Bool.false_eq_true, if_false, hescape]

/-- A character without a meaning of its own stands for itself. -/
theorem readBranches_plain {c : Char} (h : isMeta c = false) :
    readBranches (fuel + 1) ⟨c :: rest, false, names⟩ branches items =
      readBranches fuel ⟨rest, false, names⟩ branches (.literal ⟨c, false⟩ :: items) := by
  rw [readBranches]
  simp only [skip, Bool.false_eq_true, if_false]
  split <;> first | exact absurd h (by decide) | rfl

end Steps

/-! ## §2. Repetitions that are read. -/

mutual

/-- No repetition in a tree asks for more than it allows. -/
def Tree.Bounded : Tree → Prop
  | .times body least most => body.Bounded ∧ ∀ m, most = some m → least ≤ m
  | .group _ body => body.Bounded
  | .alt branches => Tree.BoundedList branches
  | .cat items => Tree.BoundedList items
  | _ => True

/-- The same of all pieces of a list. -/
def Tree.BoundedList : List Tree → Prop
  | [] => True
  | piece :: pieces => piece.Bounded ∧ Tree.BoundedList pieces

end

theorem Tree.boundedList_iff (pieces : List Tree) :
    Tree.BoundedList pieces ↔ ∀ t ∈ pieces, t.Bounded := by
  induction pieces with
  | nil => simp [Tree.BoundedList]
  | cons t pieces ih => rw [Tree.BoundedList, ih, List.forall_mem_cons]

theorem bounded_ofItems {items : List Tree} (h : ∀ t ∈ items, t.Bounded) :
    (Tree.ofItems items).Bounded := by
  unfold Tree.ofItems
  split
  · exact trivial
  · exact h _ (List.mem_singleton_self _)
  · exact (Tree.boundedList_iff items).mpr h

theorem bounded_ofBranches {branches : List Tree} (h : ∀ t ∈ branches, t.Bounded) :
    (Tree.ofBranches branches).Bounded := by
  unfold Tree.ofBranches
  split
  · exact h _ (List.mem_singleton_self _)
  · exact (Tree.boundedList_iff branches).mpr h

/-- The bounds between braces are in order. -/
theorem le_of_readBounds {verbose : Bool} {cs rest : List Char} {least : Nat} {most : Option Nat}
    (h : readBounds verbose cs = some (least, most, rest)) : ∀ m, most = some m → least ≤ m := by
  unfold readBounds at h
  obtain ⟨⟨n, cs'⟩, -, h⟩ := Option.bind_eq_some_iff.mp h
  dsimp only at h
  split at h
  · cases h
    intro m hm
    cases hm
    exact Nat.le_refl _
  · split at h
    · cases h
      nofun
    · obtain ⟨⟨n', cs''⟩, -, h⟩ := Option.bind_eq_some_iff.mp h
      dsimp only at h
      split at h
      · split at h
        case isTrue hle =>
          cases h
          intro m hm
          cases hm
          exact hle
        case isFalse => cases h
      · cases h
  · cases h

theorem bounded_readHex {verbose : Bool} {count : Nat} {cs rest : List Char} {piece : Tree}
    (h : readHex verbose count cs = some (piece, rest)) : piece.Bounded := by
  unfold readHex at h
  split at h
  all_goals
    obtain ⟨⟨digits, after⟩, -, h⟩ := Option.bind_eq_some_iff.mp h
    obtain ⟨c, -, h⟩ := Option.bind_eq_some_iff.mp h
    cases h
    exact trivial

theorem bounded_readProperty {verbose negated : Bool} {cs rest : List Char} {piece : Tree}
    (h : readProperty verbose negated cs = some (piece, rest)) : piece.Bounded := by
  unfold readProperty at h
  split at h
  · cases h
  split at h
  · obtain ⟨⟨name, after⟩, -, h⟩ := Option.bind_eq_some_iff.mp h
    obtain ⟨⟨p, unequal⟩, -, h⟩ := Option.bind_eq_some_iff.mp h
    cases h
    exact trivial
  split at h
  · cases h
  · obtain ⟨p, -, h⟩ := Option.map_eq_some_iff.mp h
    cases h
    exact trivial

theorem bounded_readBoundary {verbose : Bool} {cs rest : List Char} {piece : Tree}
    (h : readBoundary verbose cs = some (piece, rest)) : piece.Bounded := by
  unfold readBoundary at h
  split at h
  · split at h
    · cases h
    split at h
    · split at h
      · obtain ⟨a, -, h⟩ := Option.map_eq_some_iff.mp h
        cases h
        exact trivial
      · cases h
    · cases h
      exact trivial
  · cases h
    exact trivial

/-- An escape stands for a piece without parts. -/
theorem bounded_readEscape {verbose : Bool} {cs rest : List Char} {piece : Tree}
    (h : readEscape verbose cs = some (piece, rest)) : piece.Bounded := by
  unfold readEscape at h
  split at h
  · cases h
  split at h
  -- three escapes are read by their digits, two by a name, and one may have a name
  case h_1 | h_2 | h_3 => exact bounded_readHex h
  case h_4 | h_5 => exact bounded_readProperty h
  case h_14 => exact bounded_readBoundary h
  case h_18 =>
    split at h
    · cases h
      exact trivial
    · obtain ⟨c, -, h⟩ := Option.map_eq_some_iff.mp h
      cases h
      exact trivial
  all_goals
    cases h
    exact trivial

theorem bounded_repeatLatest {items items' : List Tree} {least : Nat} {most : Option Nat}
    (hitems : ∀ t ∈ items, t.Bounded) (hbounds : ∀ m, most = some m → least ≤ m)
    (h : repeatLatest items least most = some items') : ∀ t ∈ items', t.Bounded := by
  unfold repeatLatest at h
  split at h
  · cases h
  · cases h
  · cases h
    obtain ⟨hitem, hrest⟩ := List.forall_mem_cons.mp hitems
    exact List.forall_mem_cons.mpr ⟨⟨hitem, hbounds⟩, hrest⟩

/-- What is read has its bounds in order, if what has been read before has. -/
theorem bounded_readBranches (fuel : Nat) :
    ∀ (scan : Scan) (branches items : List Tree) (tree : Tree) (scan' : Scan),
      (∀ t ∈ branches, t.Bounded) → (∀ t ∈ items, t.Bounded) →
        readBranches fuel scan branches items = some (tree, scan') → tree.Bounded := by
  induction fuel with
  | zero => intro scan branches items tree scan' _ _ h; cases h
  | succ fuel ih =>
      intro scan branches items tree scan' hbranches hitems h
      have hreversed : ∀ t ∈ items.reverse, t.Bounded := fun t ht => hitems t (List.mem_reverse.mp ht)
      have hbranch : ∀ t ∈ Tree.ofItems items.reverse :: branches, t.Bounded :=
        List.forall_mem_cons.mpr ⟨bounded_ofItems hreversed, hbranches⟩
      have hfinished : (Tree.ofBranches (Tree.ofItems items.reverse :: branches).reverse).Bounded :=
        bounded_ofBranches fun t ht => hbranch t (List.mem_reverse.mp ht)
      have hpiece : ∀ piece : Tree, piece.Bounded → ∀ t ∈ piece :: items, t.Bounded :=
        fun _ hpiece => List.forall_mem_cons.mpr ⟨hpiece, hitems⟩
      have hrepeated : ∀ (least : Nat) (most : Option Nat) {items' : List Tree},
          (∀ m, most = some m → least ≤ m) → repeatLatest items least most = some items' →
            ∀ t ∈ items', t.Bounded := fun _ _ _ => bounded_repeatLatest hitems
      rw [readBranches] at h
      dsimp only at h
      split at h
      · cases h
        exact hfinished
      split at h
      · -- a closing parenthesis
        cases h
        exact hfinished
      · -- another branch
        exact ih _ _ _ _ _ hbranch (by simp) h
      · -- a group, or flags
        split at h
        · cases h
        · exact ih _ _ _ _ _ hbranches (hpiece (.flags _) trivial) h
        · split at h
          · cases h
          · split at h
            case h_1 hbody =>
              have hinside := ih _ _ _ _ _ (by simp) (by simp) hbody
              exact ih _ _ _ _ _ hbranches (hpiece (.group _ _) hinside) h
            case h_2 => cases h
      · -- a class
        split at h
        · exact ih _ _ _ _ _ hbranches (hpiece (.bracket _ _) trivial) h
        · cases h
      · -- the marks of repetitions
        split at h
        case h_1 hlatest =>
          have hbounds : ∀ m, some 1 = some m → 0 ≤ m := fun m _ => Nat.zero_le m
          exact ih _ _ _ _ _ hbranches (hrepeated 0 (some 1) hbounds hlatest) h
        case h_2 => cases h
      · split at h
        case h_1 hlatest => exact ih _ _ _ _ _ hbranches (hrepeated 0 none nofun hlatest) h
        case h_2 => cases h
      · split at h
        case h_1 hlatest => exact ih _ _ _ _ _ hbranches (hrepeated 1 none nofun hlatest) h
        case h_2 => cases h
      · -- bounds between braces
        split at h
        case h_1 hbounds =>
          split at h
          case h_1 hlatest =>
            exact ih _ _ _ _ _ hbranches (hrepeated _ _ (le_of_readBounds hbounds) hlatest) h
          case h_2 => cases h
        case h_2 => cases h
      · -- an escape
        split at h
        case h_1 hescape =>
          exact ih _ _ _ _ _ hbranches (hpiece _ (bounded_readEscape hescape)) h
        case h_2 => cases h
      · exact ih _ _ _ _ _ hbranches (hpiece .dot trivial) h
      · exact ih _ _ _ _ _ hbranches (hpiece (.anchor _) trivial) h
      · exact ih _ _ _ _ _ hbranches (hpiece (.anchor _) trivial) h
      · exact ih _ _ _ _ _ hbranches (hpiece (.literal _) trivial) h

theorem bounded_ofText? {pattern : List Char} {tree : Tree} (h : Tree.ofText? pattern = some tree) :
    tree.Bounded := by
  unfold Tree.ofText? at h
  split at h
  case h_1 hread =>
    split at h
    · cases h
      exact bounded_readBranches _ _ _ _ _ _ (by simp) (by simp) hread
    · cases h
  case h_2 => cases h

/-! ## §3. Patterns and what they mean. -/

mutual

/-- The repetitions of an expression are those of the tree that it is the meaning of. -/
theorem bounded_expr? :
    ∀ (tree : Tree) {f f' : Flags} {r : Expr}, tree.expr? f = some (r, f') → tree.Bounded →
      r.Bounded
  | .empty, _, _, _, h, _ => by
      rw [Tree.expr?] at h
      cases h
      exact trivial
  | .flags _, _, _, _, h, _ => by
      rw [Tree.expr?] at h
      cases h
      exact trivial
  | .literal _, _, _, _, h, _ => by
      rw [Tree.expr?] at h
      obtain ⟨c, -, h⟩ := Option.map_eq_some_iff.mp h
      cases h
      exact trivial
  | .dot, _, _, _, h, _ => by
      rw [Tree.expr?] at h
      split at h <;> cases h
      exact trivial
  | .anchor _, _, _, _, h, _ => by
      rw [Tree.expr?] at h
      cases h
      exact trivial
  | .letter _ _, _, _, _, h, _ => by
      rw [Tree.expr?] at h
      obtain ⟨s, -, h⟩ := Option.map_eq_some_iff.mp h
      cases h
      exact trivial
  | .property _ _, _, _, _, h, _ => by
      rw [Tree.expr?] at h
      obtain ⟨s, -, h⟩ := Option.map_eq_some_iff.mp h
      cases h
      exact trivial
  | .bracket _ _, _, _, _, h, _ => by
      rw [Tree.expr?] at h
      split at h
      · obtain ⟨s, -, h⟩ := Option.map_eq_some_iff.mp h
        cases h
        exact trivial
      · cases h
  | .times body _ _, _, _, _, h, hbounded => by
      rw [Tree.expr?] at h
      split at h
      case h_1 hbody =>
        cases h
        exact ⟨bounded_expr? body hbody hbounded.1, hbounded.2⟩
      case h_2 => cases h
  | .group _ body, _, _, _, h, hbounded => by
      rw [Tree.expr?] at h
      split at h
      case h_1 hbody =>
        cases h
        exact bounded_expr? body hbody hbounded
      case h_2 => cases h
  | .alt branches, _, _, _, h, hbounded => by
      rw [Tree.expr?] at h
      exact bounded_altExpr? branches h hbounded
  | .cat items, _, _, _, h, hbounded => by
      rw [Tree.expr?] at h
      exact bounded_catExpr? items h hbounded

theorem bounded_altExpr? :
    ∀ (branches : List Tree) {f f' : Flags} {r : Expr},
      Tree.altExpr? f branches = some (r, f') → Tree.BoundedList branches → r.Bounded
  | [], _, _, _, h, _ => by
      rw [Tree.altExpr?] at h
      cases h
      exact trivial
  | branch :: branches, _, _, _, h, hbounded => by
      rw [Tree.altExpr?] at h
      split at h
      case h_1 => cases h
      case h_2 hbranch =>
        split at h
        case h_1 => cases h
        case h_2 hbranches =>
          cases h
          exact ⟨bounded_expr? branch hbranch hbounded.1,
            bounded_altExpr? branches hbranches hbounded.2⟩

theorem bounded_catExpr? :
    ∀ (items : List Tree) {f f' : Flags} {r : Expr},
      Tree.catExpr? f items = some (r, f') → Tree.BoundedList items → r.Bounded
  | [], _, _, _, h, _ => by
      rw [Tree.catExpr?] at h
      cases h
      exact trivial
  | item :: items, _, _, _, h, hbounded => by
      rw [Tree.catExpr?] at h
      split at h
      case h_1 => cases h
      case h_2 hitem =>
        split at h
        case h_1 => cases h
        case h_2 hitems =>
          cases h
          exact ⟨bounded_expr? item hitem hbounded.1, bounded_catExpr? items hitems hbounded.2⟩

end

/-- **Whatever a pattern means, a search finds it exactly where it occurs.** -/
theorem search_iff_of_ofPattern? {pattern : String} {r : Expr}
    (h : Expr.ofPattern? pattern = some r) (text : List Char) :
    r.search text = true ↔ r.Occurs text := by
  refine Expr.search_iff ?_ text
  unfold Expr.ofPattern? at h
  split at h
  case h_1 => cases h
  case h_2 tree htree =>
    split at h
    case h_1 => cases h
    case h_2 hexpr =>
      split at h
      · cases h
        exact bounded_expr? tree hexpr (bounded_ofText? htree)
      · cases h

end CiPipeline.Regex
