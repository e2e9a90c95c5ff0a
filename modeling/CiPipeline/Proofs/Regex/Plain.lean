/-
  CiPipeline.Proofs.Regex.Plain
  ─────────────────────────────
  **The search by partial derivatives keeps to what is relied on of an engine.**

  A plain pattern is read piece by piece (`readBranches_pattern`), and what is read for its
  pieces matches as they do (`sequence_at_iff`): a piece and its expressions are looked at
  where they stand, between all that is in front of them and behind them (`Expr.At`).
  Main statement: `Engine.standard_lawful`.
-/
import CiPipeline.Proofs.Regex.Reading
import CiPipeline.Regex.Standard

namespace CiPipeline.Regex

/-! ## §1. Reading a plain pattern. -/

/-- No character with a meaning of its own starts an escaped text, but for the backslash. -/
theorem head?_escape_append_ne {c : Char} (hmeta : isMeta c = true) (hc : c ≠ '\\')
    (cs : List Char) {rest : List Char} (hrest : rest.head? ≠ some c) :
    (escape cs ++ rest).head? ≠ some c := by
  cases cs with
  | nil => exact hrest
  | cons d cs =>
      unfold escape
      rw [List.flatMap_cons]
      cases hd : isMeta d with
      | true => simpa using hc.symm
      | false =>
          simp only [Bool.false_eq_true, if_false, List.cons_append, List.head?_cons]
          intro heq
          rw [Option.some.inj heq, hmeta] at hd
          cases hd

namespace Piece

/-- What is read for a piece. -/
def items : Piece → List Tree
  | .textStart => [.anchor .caret]
  | .textEnd => [.anchor .dollar]
  | .text cs => cs.map fun c => .literal ⟨c, false⟩
  | .run => [.times .dot 0 none]

/-- In how many steps a piece is read. -/
def steps : Piece → Nat
  | .textStart | .textEnd => 1
  | .text cs => cs.length
  | .run => 2

theorem steps_le_length_written (piece : Piece) : piece.steps ≤ piece.written.length := by
  cases piece with
  | textStart | textEnd | run => exact Nat.le_refl _
  | text cs =>
      show cs.length ≤ (escape cs).length
      unfold escape
      induction cs with
      | nil => exact Nat.le_refl _
      | cons c cs ih =>
          rw [List.flatMap_cons, List.length_append, List.length_cons]
          split <;> simp only [List.length_cons, List.length_nil] <;> omega

/-- No mark of laziness starts a piece. -/
theorem head?_written_ne (pieces : List Piece) : (pieces.flatMap written).head? ≠ some '?' := by
  induction pieces with
  | nil => nofun
  | cons piece pieces ih =>
      rw [List.flatMap_cons]
      cases piece with
      | textStart | textEnd | run => simp [written]
      | text cs => exact head?_escape_append_ne (by decide) (by decide) cs ih

end Piece

section Reading

variable {names : List String} {branches items : List Tree} {rest : List Char}

/-- The characters of an escaped text are read one by one, as themselves. -/
theorem readBranches_escape (fuel : Nat) (cs : List Char) : ∀ items : List Tree,
    readBranches (cs.length + fuel) ⟨escape cs ++ rest, false, names⟩ branches items =
      readBranches fuel ⟨rest, false, names⟩ branches
        ((cs.map fun c => .literal ⟨c, false⟩).reverse ++ items) := by
  induction cs with
  | nil =>
      intro items
      rw [List.length_nil, Nat.zero_add]
      rfl
  | cons c cs ih =>
      intro items
      have hnext := ih (.literal ⟨c, false⟩ :: items)
      unfold escape at hnext ⊢
      rw [List.length_cons, Nat.add_right_comm, List.flatMap_cons, List.append_assoc]
      rw [List.map_cons, List.reverse_cons, List.append_assoc, List.singleton_append, ← hnext]
      cases hmeta : isMeta c with
      | true => exact readBranches_escaped hmeta
      | false => exact readBranches_plain hmeta

theorem readBranches_piece (fuel : Nat) (piece : Piece) (h : rest.head? ≠ some '?') :
    readBranches (piece.steps + fuel) ⟨piece.written ++ rest, false, names⟩ branches items =
      readBranches fuel ⟨rest, false, names⟩ branches (piece.items.reverse ++ items) := by
  cases piece with
  | textStart =>
      rw [Piece.steps, Nat.add_comm]
      exact readBranches_caret
  | textEnd =>
      rw [Piece.steps, Nat.add_comm]
      exact readBranches_dollar
  | text cs => exact readBranches_escape fuel cs items
  | run =>
      rw [Piece.steps, Nat.add_comm]
      exact readBranches_anything h

/-- The pieces are read one after the other, up to the end of the pattern. -/
theorem readBranches_pattern (pieces : List Piece) : ∀ (fuel : Nat) (items : List Tree),
    (pieces.flatMap Piece.written).length + 1 ≤ fuel →
      readBranches fuel ⟨pieces.flatMap Piece.written, false, names⟩ [] items =
        some (.ofItems (items.reverse ++ pieces.flatMap Piece.items), ⟨[], false, names⟩) := by
  induction pieces with
  | nil =>
      intro fuel items hfuel
      obtain ⟨fuel, rfl⟩ := Nat.exists_eq_add_of_le' hfuel
      rw [List.flatMap_nil, List.flatMap_nil, List.append_nil, List.length_nil, Nat.zero_add,
        readBranches_end]
      rfl
  | cons piece pieces ih =>
      intro fuel items hfuel
      have hsteps := piece.steps_le_length_written
      rw [List.flatMap_cons, List.length_append] at hfuel
      obtain ⟨left, rfl⟩ := Nat.exists_eq_add_of_le (by omega : piece.steps ≤ fuel)
      rw [List.flatMap_cons, readBranches_piece left piece (Piece.head?_written_ne pieces),
        ih left _ (by omega), List.reverse_append, List.reverse_reverse, List.append_assoc,
        List.flatMap_cons]

end Reading

/-- No piece is nested deeper than a repetition in a sequence. -/
theorem depth_items_le (pieces : List Piece) :
    (Tree.ofItems (pieces.flatMap Piece.items)).depth ≤ nestingLimit := by
  have hpiece : ∀ t ∈ pieces.flatMap Piece.items, t.depth ≤ 1 := by
    intro t ht
    obtain ⟨piece, -, ht⟩ := List.mem_flatMap.mp ht
    cases piece with
    | textStart | textEnd | run =>
        rw [List.mem_singleton.mp ht]
        decide
    | text cs =>
        obtain ⟨c, -, rfl⟩ := List.mem_map.mp ht
        exact Nat.zero_le _
  have hlist : ∀ ts : List Tree, (∀ t ∈ ts, t.depth ≤ 1) → Tree.depthList ts ≤ 1 := by
    intro ts hts
    induction ts with
    | nil => exact Nat.zero_le _
    | cons t ts ih =>
        obtain ⟨ht, hrest⟩ := List.forall_mem_cons.mp hts
        exact Nat.max_le.mpr ⟨ht, ih hrest⟩
  unfold Tree.ofItems nestingLimit
  split
  case h_1 => decide
  case h_2 item hitems =>
    have hitem := hpiece item (by rw [hitems]; exact List.mem_singleton_self item)
    omega
  case h_3 =>
    have hitems := hlist _ hpiece
    rw [Tree.depth]
    omega

/-- **What is written for pieces is always a pattern.** -/
theorem ofText?_pattern (pieces : List Piece) :
    Tree.ofText? (Piece.pattern pieces).toList =
      some (Tree.ofItems (pieces.flatMap Piece.items)) := by
  unfold Tree.ofText? Piece.pattern
  rw [String.toList_ofList, readBranches_pattern pieces _ [] (Nat.le_refl _)]
  simp [depth_items_le]

/-! ## §2. What it matches. -/

namespace Piece

/-- The expressions of a piece. -/
def exprs : Piece → List Expr
  | .textStart => [.look .textStart]
  | .textEnd => [.look .textEnd]
  | .text cs => cs.map fun c => .chars (.single c)
  | .run => [.times (.chars (.compl (.single '\n'))) 0 none]

end Piece

namespace Expr

/-- An expression matches a part of a text between what stands in front of it and behind
it. -/
def At (r : Expr) (front part back : List Char) : Prop :=
  r.Matches front.getLast? part back.head?

/-- Expressions one after the other. -/
def sequence (rs : List Expr) : Expr :=
  rs.foldr .cat .empty

section

variable {r s : Expr} {front part back : List Char}

theorem at_cat_iff : (cat r s).At front part back ↔
    ∃ first rest, part = first ++ rest ∧ r.At front first (rest ++ back) ∧
      s.At (front ++ first) rest back := by
  unfold At
  rw [matches_cat_iff]
  unfold Span.andThen
  simp only [List.head?_append, List.getLast?_append]

theorem at_empty_iff : empty.At front part back ↔ part = [] := Iff.rfl

/-- Behind the last expression nothing is left. -/
theorem at_cat_empty_iff : (cat r empty).At front part back ↔ r.At front part back := by
  rw [at_cat_iff]
  constructor
  · rintro ⟨first, rest, rfl, hfirst, hrest⟩
    rw [at_empty_iff.mp hrest] at hfirst ⊢
    rw [List.append_nil]
    exact hfirst
  · intro h
    exact ⟨part, [], (List.append_nil part).symm, h, rfl⟩

/-- Characters that stand for themselves. -/
theorem sequence_chars_at_iff (rs : List Expr) (cs : List Char) : ∀ front part : List Char,
    (sequence ((cs.map fun c => chars (.single c)) ++ rs)).At front part back ↔
      ∃ rest, part = cs ++ rest ∧ (sequence rs).At (front ++ cs) rest back := by
  induction cs with
  | nil =>
      intro front part
      rw [List.append_nil]
      constructor
      · exact fun h => ⟨part, rfl, h⟩
      · rintro ⟨rest, rfl, h⟩
        exact h
  | cons c cs ih =>
      intro front part
      have hsingle : ∀ first after, (chars (.single c)).At front first after ↔ first = [c] := by
        intro first after
        unfold At Matches
        simp [CharSet.contains_single]
      show (cat (chars (.single c)) (sequence ((cs.map fun c => chars (.single c)) ++ rs))).At
        front part back ↔ _
      rw [at_cat_iff]
      simp only [hsingle, ih]
      constructor
      · rintro ⟨first, rest, rfl, rfl, after, rfl, h⟩
        exact ⟨after, rfl, by rw [List.append_assoc] at h; exact h⟩
      · rintro ⟨after, rfl, h⟩
        refine ⟨[c], cs ++ after, rfl, rfl, after, rfl, ?_⟩
        rw [List.append_assoc]
        exact h

end

end Expr

/-- The expressions of pieces match one after the other, as the pieces do. -/
theorem sequence_at_iff (pieces : List Piece) : ∀ front part back : List Char,
    (Expr.sequence (pieces.flatMap Piece.exprs)).At front part back ↔
      Piece.AllMatch pieces front part back := by
  induction pieces with
  | nil => exact fun _ _ _ => Iff.rfl
  | cons piece pieces ih =>
      intro front part back
      have hcat : ∀ r, (∀ first after, r.At front first after ↔ piece.Matches front first after) →
          ((Expr.cat r (Expr.sequence (pieces.flatMap Piece.exprs))).At front part back ↔
            Piece.AllMatch (piece :: pieces) front part back) := by
        intro r hr
        rw [Expr.at_cat_iff]
        simp only [hr, ih]
        rfl
      rw [List.flatMap_cons]
      cases piece with
      | textStart =>
          refine hcat (.look .textStart) fun first after => ?_
          simp [Expr.At, Expr.Matches, Look.holds, Piece.Matches]
      | textEnd =>
          refine hcat (.look .textEnd) fun first after => ?_
          simp [Expr.At, Expr.Matches, Look.holds, Piece.Matches]
      | run =>
          refine hcat (.times (.chars (.compl (.single '\n'))) 0 none) fun first after => ?_
          unfold Expr.At
          rw [Expr.matches_any_iff]
          simp [CharSet.contains, CharSet.contains_single, Piece.Matches]
      | text cs =>
          show (Expr.sequence ((cs.map fun c => .chars (.single c)) ++ _)).At front part back ↔ _
          rw [Expr.sequence_chars_at_iff]
          simp only [ih]
          constructor
          · rintro ⟨rest, rfl, h⟩
            exact ⟨cs, rest, rfl, rfl, h⟩
          · rintro ⟨_, rest, rfl, rfl, h⟩
            exact ⟨rest, rfl, h⟩

/-! ## §3. What it means. -/

/-- The items of pieces mean their expressions. -/
theorem catExpr?_items (pieces : List Piece) :
    Tree.catExpr? .standard (pieces.flatMap Piece.items) =
      some (Expr.sequence (pieces.flatMap Piece.exprs), .standard) := by
  have hchars : ∀ (cs : List Char) (ts : List Tree) (r : Expr),
      Tree.catExpr? .standard ts = some (r, .standard) →
        Tree.catExpr? .standard ((cs.map fun c => .literal ⟨c, false⟩) ++ ts) =
          some ((cs.map fun c => Expr.chars (.single c)).foldr .cat r, .standard) := by
    intro cs ts r hts
    induction cs with
    | nil => exact hts
    | cons c cs ih =>
        have hchar : (Tree.literal ⟨c, false⟩).expr? .standard =
            some (.chars (.single c), .standard) := by
          simp [Tree.expr?, Flags.standard, Flags.char?, Flags.folded]
        rw [List.map_cons, List.cons_append, Tree.catExpr?, hchar]
        dsimp only
        rw [ih]
        rfl
  induction pieces with
  | nil => rfl
  | cons piece pieces ih =>
      rw [List.flatMap_cons, List.flatMap_cons]
      cases piece with
      | textStart | textEnd =>
          rw [Piece.items, List.singleton_append, Tree.catExpr?, Tree.expr?]
          dsimp only
          rw [ih]
          rfl
      | run =>
          have hdot : Tree.dot.expr? .standard =
              some (.chars (.compl (.single '\n')), .standard) := by
            simp [Tree.expr?, Flags.standard, Flags.dot]
          rw [Piece.items, List.singleton_append, Tree.catExpr?, Tree.expr?, hdot]
          dsimp only
          rw [ih]
          rfl
      | text cs =>
          rw [Piece.items, hchars cs _ _ ih]
          unfold Expr.sequence Piece.exprs
          rw [List.foldr_append]

/-- A pattern of pieces means what its items do one after the other. -/
theorem expr?_ofItems {items : List Tree} {r : Expr}
    (h : Tree.catExpr? .standard items = some (r, .standard)) :
    ∃ s, (Tree.ofItems items).expr? .standard = some (s, .standard) ∧
      ∀ front part back, s.At front part back ↔ r.At front part back := by
  unfold Tree.ofItems
  split
  case h_1 =>
    obtain rfl : Expr.empty = r := by simpa [Tree.catExpr?] using h
    exact ⟨.empty, by simp [Tree.expr?], fun _ _ _ => Iff.rfl⟩
  case h_2 item =>
    rw [Tree.catExpr?] at h
    split at h
    case h_1 => cases h
    case h_2 s f hitem =>
      obtain ⟨rfl, rfl⟩ : Expr.cat s .empty = r ∧ f = .standard := by
        simpa [Tree.catExpr?] using h
      exact ⟨s, hitem, fun _ _ _ => Expr.at_cat_empty_iff.symm⟩
  case h_3 => exact ⟨r, by rw [Tree.expr?]; exact h, fun _ _ _ => Iff.rfl⟩

/-- **The search by partial derivatives keeps to what is relied on of an engine.** -/
instance Engine.standard_lawful : @Engine.Lawful Engine.standard where
  finds_iff h text := search_iff_of_ofPattern? h text
  matches_iff {pieces program} h front part back := by
    obtain ⟨r, hexpr, hat⟩ := expr?_ofItems (catExpr?_items pieces)
    have hread : Expr.ofPattern? (Piece.pattern pieces) = some program := h
    unfold Expr.ofPattern? at hread
    rw [ofText?_pattern] at hread
    dsimp only at hread
    rw [hexpr] at hread
    dsimp only at hread
    split at hread
    · obtain rfl := Option.some.inj hread
      exact (hat front part back).trans (sequence_at_iff pieces front part back)
    · cases hread

end CiPipeline.Regex
