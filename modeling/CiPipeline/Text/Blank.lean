/-
  CiPipeline.Text.Blank
  ─────────────────────
  **White space of the Unicode standard.**

  The characters with the property `White_Space`, and the two ends of a text
  freed from them.  The set is wider than the white space of ASCII and does not
  hold the zero-width space.

  Main statements: `exists_trim`, only blanks are passed over at the ends of a text,
  and `trim_append`, all blanks that are put around a text without any.
-/

namespace CiPipeline.Text

/-- The characters with the Unicode property `White_Space`. -/
def isBlank (c : Char) : Bool :=
  let n := c.toNat
  (9 ≤ n && n ≤ 13) || n == 32 || n == 0x85 || n == 0xA0 || n == 0x1680 ||
    (0x2000 ≤ n && n ≤ 0x200A) || n == 0x2028 || n == 0x2029 || n == 0x202F ||
    n == 0x205F || n == 0x3000

/-- The text after its leading blanks. -/
def trimStart (s : List Char) : List Char :=
  s.dropWhile isBlank

/-- The text between its leading and its trailing blanks. -/
def trim (s : List Char) : List Char :=
  (trimStart (trimStart s).reverse).reverse

/-- A digit is no blank. -/
theorem isBlank_of_isDigit {c : Char} (h : c.isDigit = true) : isBlank c = false := by
  simp only [Char.isDigit, ge_iff_le, Bool.and_eq_true, decide_eq_true_eq] at h
  have hlow : 48 ≤ c.toNat := h.1
  have hhigh : c.toNat ≤ 57 := h.2
  unfold isBlank
  simp
  omega

/-- A blank is no letter, so it has no other case. -/
theorem toLower_of_isBlank {c : Char} (h : isBlank c = true) : c.toLower = c := by
  unfold Char.toLower
  rw [dif_neg]
  intro hupper
  have hlow : 65 ≤ c.toNat := hupper.1
  have hhigh : c.toNat ≤ 90 := hupper.2
  unfold isBlank at h
  simp at h
  omega

theorem trimStart_cons {c : Char} {rest : List Char} (h : isBlank c = false) :
    trimStart (c :: rest) = c :: rest := by
  unfold trimStart
  rw [List.dropWhile_cons_of_neg (by simp [h])]

theorem trimStart_append {blanks : List Char} (h : ∀ c ∈ blanks, isBlank c = true)
    (rest : List Char) : trimStart (blanks ++ rest) = trimStart rest :=
  List.dropWhile_append_of_pos h

/-- What is passed over at the start of a text are blanks. -/
theorem exists_trimStart (s : List Char) :
    ∃ blanks, s = blanks ++ trimStart s ∧ ∀ c ∈ blanks, isBlank c = true :=
  ⟨s.takeWhile isBlank, List.takeWhile_append_dropWhile.symm,
    List.all_eq_true.mp List.all_takeWhile⟩

/-- What is passed over at the two ends of a text are blanks. -/
theorem exists_trim (s : List Char) :
    ∃ before after, s = before ++ trim s ++ after ∧ (∀ c ∈ before, isBlank c = true) ∧
      ∀ c ∈ after, isBlank c = true := by
  obtain ⟨before, hbefore, hblank⟩ := exists_trimStart s
  obtain ⟨after, hafter, hblank'⟩ := exists_trimStart (trimStart s).reverse
  refine ⟨before, after.reverse, ?_, hblank, fun c hc => hblank' c (List.mem_reverse.mp hc)⟩
  have hrest : trimStart s = trim s ++ after.reverse := by
    unfold trim
    rw [← List.reverse_append, ← hafter, List.reverse_reverse]
  rw [List.append_assoc, ← hrest, ← hbefore]

/-- A text without blanks is what is left of it when blanks are put around it. -/
theorem trim_append {before text after : List Char} (hbefore : ∀ c ∈ before, isBlank c = true)
    (htext : ∀ c ∈ text, isBlank c = false) (hafter : ∀ c ∈ after, isBlank c = true) :
    trim (before ++ text ++ after) = text := by
  -- where the text starts, no blank is passed over; at the other end likewise
  have hstart : ∀ {t : List Char} (rest : List Char), (∀ c ∈ t, isBlank c = false) → t ≠ [] →
      trimStart (t ++ rest) = t ++ rest := by
    intro t rest ht hne
    cases t with
    | nil => exact absurd rfl hne
    | cons c t => exact trimStart_cons (ht c List.mem_cons_self)
  unfold trim
  rw [List.append_assoc, trimStart_append hbefore]
  by_cases hne : text = []
  · have hnone : trimStart (after ++ []) = [] := trimStart_append hafter []
    rw [List.append_nil] at hnone
    rw [hne, List.nil_append, hnone]
    rfl
  · rw [hstart after htext hne, List.reverse_append,
      trimStart_append fun c hc => hafter c (List.mem_reverse.mp hc)]
    have hback := hstart [] (fun c hc => htext c (List.mem_reverse.mp hc))
      (fun h => hne (List.reverse_eq_nil_iff.mp h))
    rw [List.append_nil] at hback
    rw [hback, List.reverse_reverse]

end CiPipeline.Text
