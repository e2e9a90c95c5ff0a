/-
  CiPipeline.Proofs.Time.ReadBack
  ───────────────────────────────
  **A moment is read back from its text.**

  The reader takes the parts of a text from the left.  For each part there is one lemma: of a
  text that starts with the written part it takes just that, and leaves the rest.  The mark
  behind a part is no digit, which is where a number of no fixed length ends, and no part
  starts with a blank, which is what the reader passes over.  Main statement: `Instant.ofText_text`.
-/
import CiPipeline.Time.Written
import Mathlib.Algebra.Group.Nat.Defs

namespace CiPipeline.Time

open Text (isBlank trimStart isBlank_of_isDigit trimStart_cons)

/-! ## §1. Numbers. -/

/-- A text does not go on with a digit. -/
def Stops (rest : List Char) : Prop :=
  ∀ c ∈ rest.head?, c.isDigit = false

theorem stops_cons {c : Char} {rest : List Char} (h : c.isDigit = false) : Stops (c :: rest) := by
  intro d hd
  cases hd
  exact h

theorem digitsValue_eq_ofDigitChars (cs : List Char) :
    digitsValue cs = Nat.ofDigitChars 10 cs 0 := by
  unfold digitsValue Nat.ofDigitChars
  congr 1
  funext n c
  rw [Nat.mul_comm]

/-- Zeros in front of a number do not change its value. -/
theorem digitsValue_padded (width n : Nat) : digitsValue (padded width n) = n := by
  rw [digitsValue_eq_ofDigitChars]
  unfold padded
  rw [Nat.ofDigitChars_append, Nat.ofDigitChars_replicate_zero, Nat.mul_zero,
    Nat.ofDigitChars_toDigits (by decide) (by decide)]

theorem isDigit_of_mem_padded {width n : Nat} {c : Char} (h : c ∈ padded width n) :
    c.isDigit = true := by
  unfold padded at h
  rcases List.mem_append.mp h with h | h
  · rw [List.eq_of_mem_replicate h]
    rfl
  · exact Nat.isDigit_of_mem_toDigits (by decide) (by decide) h

theorem padded_ne_nil (width n : Nat) : padded width n ≠ [] := by
  intro h
  have hpos := Nat.length_toDigits_pos (b := 10) (n := n)
  rw [List.length_pos_iff] at hpos
  exact hpos (List.append_eq_nil_iff.mp h).2

/-- A number that is small enough takes just the width. -/
theorem length_padded {width n : Nat} (hwidth : 0 < width) (h : n < 10 ^ width) :
    (padded width n).length = width := by
  have hlength := (Nat.length_toDigits_le_iff (by decide) hwidth).mpr h
  unfold padded
  rw [List.length_append, List.length_replicate]
  omega

/-- Digits are read as a number, as far as they go or as many as may be read. -/
theorem readNumber_append {most : Nat} {digits rest : List Char} (hne : digits ≠ [])
    (hdigits : ∀ c ∈ digits, c.isDigit = true) (hmost : digits.length ≤ most)
    (hend : digits.length = most ∨ Stops rest) :
    readNumber most (digits ++ rest) = .ok (digitsValue digits, rest) := by
  have htaken : ((digits ++ rest).take most).takeWhile Char.isDigit = digits := by
    rw [List.take_append, List.take_of_length_le hmost, List.takeWhile_append_of_pos hdigits]
    have hstop : (rest.take (most - digits.length)).takeWhile Char.isDigit = [] := by
      rcases hend with hall | hstops
      · rw [hall, Nat.sub_self]
        rfl
      · cases rest with
        | nil => simp
        | cons c rest =>
          have hc := hstops c rfl
          cases most - digits.length with
          | zero => rfl
          | succ k => simp [hc]
    rw [hstop, List.append_nil]
  unfold readNumber
  rw [htaken]
  cases digits with
  | nil => exact absurd rfl hne
  | cons d digits =>
    show Except.ok (digitsValue (d :: digits), (d :: digits ++ rest).drop (d :: digits).length) = _
    rw [List.drop_left]

/-- A number of a fixed width is read back, whatever follows. -/
theorem readNumber_padded {width n : Nat} (hwidth : 0 < width) (h : n < 10 ^ width)
    (rest : List Char) : readNumber width (padded width n ++ rest) = .ok (n, rest) := by
  have hlength := length_padded hwidth h
  rw [readNumber_append (padded_ne_nil width n) (fun _ => isDigit_of_mem_padded)
    (Nat.le_of_eq hlength) (.inl hlength), digitsValue_padded]

/-- A number of no fixed width is read back when no digit follows. -/
theorem readNumber_padded_of_stops (width n : Nat) {rest : List Char} (hrest : Stops rest) :
    readNumber (padded width n ++ rest).length (padded width n ++ rest) = .ok (n, rest) := by
  rw [readNumber_append (padded_ne_nil width n) (fun _ => isDigit_of_mem_padded)
    (by rw [List.length_append]; omega) (.inr hrest), digitsValue_padded]

/-! ## §2. Blanks. -/

theorem trimStart_padded (width n : Nat) (rest : List Char) :
    trimStart (padded width n ++ rest) = padded width n ++ rest := by
  cases hpadded : padded width n with
  | nil => exact absurd hpadded (padded_ne_nil width n)
  | cons c digits =>
    have hmem : c ∈ padded width n := by
      rw [hpadded]
      exact List.mem_cons_self
    rw [List.cons_append, trimStart_cons (isBlank_of_isDigit (isDigit_of_mem_padded hmem))]

/-! ## §3. The parts of a text. -/

theorem readField_padded {least greatest n : Nat} (hleast : least ≤ n) (hgreatest : n ≤ greatest)
    (h : greatest < 100) (rest : List Char) :
    readField least greatest (padded 2 n ++ rest) = .ok (n, rest) := by
  unfold readField
  rw [trimStart_padded, readNumber_padded (by decide) (by omega)]
  exact if_pos ⟨hleast, hgreatest⟩

theorem readMark_cons {mark : Char} (h : isBlank mark = false) (rest : List Char) :
    readMark mark (mark :: rest) = .ok rest := by
  unfold readMark
  rw [trimStart_cons h]
  exact if_pos rfl

/-- A year of four digits is read back, whatever follows. -/
theorem readYear_padded {n : Nat} (h : n < 10000) (rest : List Char) :
    readYear (padded 4 n ++ rest) = .ok ((n : Int), rest) := by
  have hread : readNumber 4 (padded 4 n ++ rest) = .ok (n, rest) :=
    readNumber_padded (by decide) h rest
  obtain ⟨c, digits, hpadded⟩ := List.exists_cons_of_ne_nil (padded_ne_nil 4 n)
  have hmem : c ∈ padded 4 n := by
    rw [hpadded]
    exact List.mem_cons_self
  have hdigit := isDigit_of_mem_padded hmem
  unfold readYear
  rw [trimStart_padded]
  rw [hpadded, List.cons_append] at hread ⊢
  dsimp only
  split
  case h_1 heq =>
    cases heq
    cases hdigit
  case h_2 heq =>
    cases heq
    cases hdigit
  case h_3 =>
    rw [hread]
    exact if_pos (by omega)

/-- A year is read back up to the mark behind it. -/
theorem readYear_yearText {y : Int} (hyear : isYear y = true) (rest : List Char) :
    readYear (yearText y ++ '-' :: rest) = .ok (y, '-' :: rest) := by
  have hbounds : -262143 ≤ y ∧ y ≤ 262142 := by simpa [isYear] using hyear
  have hstops : Stops ('-' :: rest) := stops_cons rfl
  unfold yearText
  split
  case isTrue hfour =>
    rw [readYear_padded (by omega), Int.toNat_of_nonneg hfour.1]
  case isFalse hlong =>
    have hread := readNumber_padded_of_stops 4 y.natAbs hstops
    by_cases hnegative : y < 0
    · have hy : -(y.natAbs : Int) = y := by omega
      rw [if_pos hnegative, List.cons_append]
      unfold readYear
      rw [trimStart_cons rfl]
      simp only [hread, pure, Except.pure, bind, Except.bind, hy]
      exact if_pos (by omega)
    · have hy : (y.natAbs : Int) = y := by omega
      rw [if_neg hnegative, List.cons_append]
      unfold readYear
      rw [trimStart_cons rfl]
      simp only [hread, pure, Except.pure, bind, Except.bind, hy]
      exact if_pos (by omega)

/-- The digits of a fraction are read back up to a mark behind them, and count for what they
stand for to the ninth place. -/
theorem readFraction_padded {width n : Nat} (hwidth : 0 < width) (hnine : width ≤ 9)
    (h : n < 10 ^ width) (rest : List Char) :
    readFraction ('.' :: padded width n ++ 'Z' :: rest) =
      .ok (n * 10 ^ (9 - width), 'Z' :: rest) := by
  have hlength := length_padded hwidth h
  have hread : readNumber 9 (padded width n ++ 'Z' :: rest) = .ok (n, 'Z' :: rest) := by
    rw [readNumber_append (padded_ne_nil width n) (fun _ => isDigit_of_mem_padded)
      (by omega) (.inr (stops_cons rfl)), digitsValue_padded]
  have hcount : (padded width n ++ 'Z' :: rest).length - ('Z' :: rest).length = width := by
    rw [List.length_append, hlength, Nat.add_sub_cancel]
  have htaken : (padded width n ++ 'Z' :: rest).take width = padded width n := by
    rw [List.take_append_of_le_length (Nat.le_of_eq hlength.symm),
      List.take_of_length_le (Nat.le_of_eq hlength)]
  unfold readFraction
  simp only [List.cons_append, hread, bind, Except.bind]
  rw [hcount, htaken, digitsValue_padded, List.dropWhile_cons_of_neg (by decide)]
  rfl

/-- A fraction is read back up to the end of the time of day. -/
theorem readFraction_fractionText {n : Nat} (h : n < 1000000000) (rest : List Char) :
    readFraction (fractionText n ++ 'Z' :: rest) = .ok (n, 'Z' :: rest) := by
  unfold fractionText
  split
  case isTrue hnone =>
    subst hnone
    rfl
  case isFalse =>
    split
    case isTrue hmillis =>
      rw [readFraction_padded (by decide) (by decide) (by omega)]
      have hn : n / 1000000 * 10 ^ (9 - 3) = n := by omega
      rw [hn]
    case isFalse =>
      split
      case isTrue hmicros =>
        rw [readFraction_padded (by decide) (by decide) (by omega)]
        have hn : n / 1000 * 10 ^ (9 - 6) = n := by omega
        rw [hn]
      case isFalse =>
        rw [readFraction_padded (by decide) (by decide) (by omega), Nat.sub_self, Nat.pow_zero,
          Nat.mul_one]

/-- A clock without an offset shows universal time. -/
theorem atOffset_zero {d : Date} {c : Clock} (h : c.valid = true) : atOffset d c 0 = (d, c) := by
  obtain ⟨⟨⟨hhour, hminute⟩, -⟩, -⟩ := by simpa [Clock.valid] using h
  have hminutes : ((c.hour * 60 + c.minute : Nat) : Int) - 0 / 60 =
      (c.hour * 60 + c.minute : Nat) := by
    omega
  have htoday : ((c.hour * 60 + c.minute : Nat) % 1440 : Int).toNat = c.hour * 60 + c.minute := by
    omega
  unfold atOffset
  rw [hminutes]
  dsimp only
  rw [if_neg (by omega), if_neg (by omega), htoday]
  have hhours : (c.hour * 60 + c.minute) / 60 = c.hour := by omega
  have hrest : (c.hour * 60 + c.minute) % 60 = c.minute := by omega
  rw [hhours, hrest]

/-! ## §4. Moments. -/

/-- A month has at most 31 days. -/
theorem daysInMonth_le (y : Int) (m : Nat) : daysInMonth y m ≤ 31 := by
  unfold daysInMonth
  split
  · split <;> decide
  · split <;> decide

/-- **A moment is read back from its text.** -/
theorem Instant.ofText_text (t : Instant) : Instant.ofText t.text = .ok t := by
  obtain ⟨⟨year, month, day⟩, ⟨hour, minute, second, nanosecond⟩, hvalid⟩ := t
  obtain ⟨hdate, hclock⟩ := (Bool.and_eq_true _ _).mp hvalid
  obtain ⟨⟨⟨⟨hyear, hmonth⟩, hmonth'⟩, hday⟩, hday'⟩ := by simpa [Date.valid] using hdate
  obtain ⟨⟨⟨hhour, hminute⟩, hsecond⟩, hnanosecond⟩ := by simpa [Clock.valid] using hclock
  have hlast := daysInMonth_le year month
  -- the parts of the text, from the left
  have hyears := readYear_yearText hyear
  have hmonths (rest : List Char) : readField 1 12 (padded 2 month ++ rest) = .ok (month, rest) :=
    readField_padded hmonth hmonth' (by decide) rest
  have hdays (rest : List Char) : readField 1 31 (padded 2 day ++ rest) = .ok (day, rest) :=
    readField_padded hday (by omega) (by decide) rest
  have hhours (rest : List Char) : readField 0 23 (padded 2 hour ++ rest) = .ok (hour, rest) :=
    readField_padded (by omega) (by omega) (by decide) rest
  have hminutes (rest : List Char) :
      readField 0 59 (padded 2 minute ++ rest) = .ok (minute, rest) :=
    readField_padded (by omega) (by omega) (by decide) rest
  have hseconds (rest : List Char) :
      readField 0 60 (padded 2 second ++ rest) = .ok (second, rest) :=
    readField_padded (by omega) (by omega) (by decide) rest
  have hfraction := readFraction_fractionText hnanosecond
  have hdash (rest : List Char) : readMark '-' ('-' :: rest) = .ok rest := readMark_cons rfl rest
  have hcolon (rest : List Char) : readMark ':' (':' :: rest) = .ok rest := readMark_cons rfl rest
  have hbetween (rest : List Char) : readBetween ('T' :: rest) = .ok rest := rfl
  have hoffset : readOffset (trimStart ['Z']) = .ok (0, []) := rfl
  unfold Instant.ofText Instant.text
  rw [String.toList_ofList]
  unfold Instant.ofChars Instant.chars
  simp only [List.append_assoc, List.cons_append]
  simp only [hyears, hmonths, hdays, hhours, hminutes, hseconds, hfraction, hdash, hcolon,
    hbetween, hoffset, bind, Except.bind]
  -- nothing is left over, and nothing is out of range
  rw [if_neg (by decide), if_neg (by decide), if_neg (by simp [hdate])]
  simp only [atOffset_zero hclock]
  exact dif_pos hvalid

/-- The written form of a moment is read back. -/
theorem Instant.codec_lawful : Instant.codec.Lawful := by
  intro t k hk
  have htext := Instant.ofText_text t
  simp only [Instant.codec, Json.Alike] at hk
  simp only [hk, Instant.codec, Json.Doc.ofJson, Json.Quoted.keep, Json.orBroken, bind, Except.bind,
    htext]

end CiPipeline.Time
