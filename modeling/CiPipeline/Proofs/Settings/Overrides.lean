/-
  CiPipeline.Proofs.Settings.Overrides
  ────────────────────────────────────
  **Overriding settings does not depend on the order of the variables.**

  What a value says is told by the texts that say it, with blanks around them (`Says`); what
  variables make of a setting is told by the last of them that is about it (`LastSays`).  Where
  no variable is given twice there is no choice of a last one, so the order counts for nothing.
  Main statement: `overrideAll_unordered`.
-/
import CiPipeline.Settings.Overrides
import Mathlib.Data.List.Nodup
import Mathlib.Tactic.MkIffOfInductiveProp

namespace CiPipeline

open Text (isBlank trim)

/-! ## §1. Values. -/

/-- A value says what one of the texts with a meaning says, whatever blanks are around it. -/
def Says {β : Type} (Means : List Char → β → Prop) (value : String) (b : β) : Prop :=
  ∃ before text after, value.toList = before ++ text ++ after ∧
    (∀ c ∈ before, isBlank c = true) ∧ (∀ c ∈ after, isBlank c = true) ∧ Means text b

/-- Decimal digits, at least one, that stand for a count. -/
def Digits (text : List Char) (n : UInt64) : Prop :=
  text ≠ [] ∧ (∀ c ∈ text, c.isDigit = true) ∧ Nat.ofDigitChars 10 text 0 = n.toNat

/-- The texts of a count: its digits, with or without a plus sign. -/
def CountText (text : List Char) (n : UInt64) : Prop :=
  Digits text n ∨ ∃ digits, text = '+' :: digits ∧ Digits digits n

/-- The texts of a switch: a word for its position, whatever the case of ASCII letters. -/
def SwitchText (text : List Char) (b : Bool) : Prop :=
  ∃ word ∈ if b then onTexts else offTexts, text.map Char.toLower = word.toList

theorem digitsToNat_eq_ofDigitChars (cs : List Char) :
    digitsToNat cs = Nat.ofDigitChars 10 cs 0 := by
  unfold digitsToNat Nat.ofDigitChars
  congr 1
  funext n c
  rw [Nat.mul_comm]

theorem digits_iff {cs : List Char} {n : UInt64} :
    Digits cs n ↔ (cs.isEmpty || !cs.all Char.isDigit) = false ∧
      digitsToNat cs < UInt64.size ∧ UInt64.ofNat (digitsToNat cs) = n := by
  have hshape : (cs.isEmpty || !cs.all Char.isDigit) = false ↔
      cs ≠ [] ∧ ∀ c ∈ cs, c.isDigit = true := by
    simp
  unfold Digits
  rw [hshape, digitsToNat_eq_ofDigitChars, and_assoc]
  refine and_congr_right fun _ => and_congr_right fun _ => ?_
  constructor
  · intro h
    rw [h]
    exact ⟨n.toNat_lt_size, UInt64.ofNat_toNat⟩
  · rintro ⟨hlt, rfl⟩
    exact (UInt64.toNat_ofNat_of_lt' hlt).symm

theorem parseCount_eq_some_iff {cs : List Char} {n : UInt64} :
    parseCount cs = some n ↔ CountText cs n := by
  -- a plus sign is no digit, so only one of the two forms of a text is at hand
  have hplus : ∀ digits, ¬Digits ('+' :: digits) n := by
    intro digits h
    have hdigit := h.2.1 '+' List.mem_cons_self
    revert hdigit
    decide
  have hparse : ∀ digits, (if (digits.isEmpty || !digits.all Char.isDigit) = true then none
      else if digitsToNat digits < UInt64.size then some (UInt64.ofNat (digitsToNat digits))
        else none) = some n ↔ Digits digits n := by
    intro digits
    rw [digits_iff]
    split
    case isTrue h => simp [h]
    case isFalse h =>
      split
      case isTrue hlt => simp [h, hlt]
      case isFalse hlt => simp [hlt]
  unfold parseCount CountText
  by_cases hhead : cs.head? = some '+'
  · obtain ⟨digits, rfl⟩ := List.head?_eq_some_iff.mp hhead
    simp only [hhead, if_true, List.tail_cons]
    rw [hparse]
    simp [hplus]
  · simp only [hhead, if_false]
    rw [hparse]
    refine ⟨.inl, ?_⟩
    rintro (h | ⟨digits, rfl, -⟩)
    · exact h
    · exact absurd rfl hhead

theorem parseSwitch_eq_some_iff {cs : List Char} {b : Bool} :
    parseSwitch cs = some b ↔ SwitchText cs b := by
  have hmem : ∀ words : List String, words.contains (String.ofList (cs.map Char.toLower)) = true ↔
      ∃ word ∈ words, cs.map Char.toLower = word.toList := by
    intro words
    rw [List.contains_iff_mem]
    constructor
    · exact fun h => ⟨_, h, String.toList_ofList.symm⟩
    · rintro ⟨word, hword, heq⟩
      rw [heq, String.ofList_toList]
      exact hword
  -- no word stands for both positions
  have hapart : ∀ word : String, onTexts.contains word = true → offTexts.contains word = false := by
    intro word hword
    have hwords : ∀ on ∈ onTexts, offTexts.contains on = false := by decide
    exact hwords word (List.contains_iff_mem.mp hword)
  unfold parseSwitch SwitchText
  rw [← hmem]
  specialize hapart (String.ofList (cs.map Char.toLower))
  generalize String.ofList (cs.map Char.toLower) = word at hapart ⊢
  cases hon : onTexts.contains word <;> cases hoff : offTexts.contains word <;>
    cases b <;> simp_all

/-! ## §2. Blanks around a text. -/

theorem CountText.not_blank {text : List Char} {n : UInt64} (h : CountText text n) :
    ∀ c ∈ text, isBlank c = false := by
  rcases h with h | ⟨digits, rfl, h⟩
  · exact fun c hc => Text.isBlank_of_isDigit (h.2.1 c hc)
  · intro c hc
    rcases List.mem_cons.mp hc with rfl | hc
    · decide
    · exact Text.isBlank_of_isDigit (h.2.1 c hc)

theorem SwitchText.not_blank {text : List Char} {b : Bool} (h : SwitchText text b) :
    ∀ c ∈ text, isBlank c = false := by
  obtain ⟨word, hword, heq⟩ := h
  have hwords : ((onTexts ++ offTexts).all fun w => w.toList.all fun c => !isBlank c) = true := by
    decide
  have hmem : word ∈ onTexts ++ offTexts := by
    cases b <;> simp_all
  intro c hc
  have hlower : isBlank c.toLower = false := by
    have hword := List.all_eq_true.mp hwords word hmem
    rw [← heq, List.all_eq_true] at hword
    simpa using hword c.toLower (List.mem_map_of_mem hc)
  cases hblank : isBlank c with
  | false => rfl
  | true => rw [← hlower, Text.toLower_of_isBlank hblank, hblank]

/-- A value says what is read from it when the blanks at its ends have been passed over. -/
theorem says_iff {β : Type} {Means : List Char → β → Prop} {parse : List Char → Option β}
    (hparse : ∀ text b, parse text = some b ↔ Means text b)
    (hblank : ∀ text b, Means text b → ∀ c ∈ text, isBlank c = false) {value : String} {b : β} :
    Says Means value b ↔ parse (trim value.toList) = some b := by
  constructor
  · rintro ⟨before, text, after, hvalue, hbefore, hafter, htext⟩
    rw [hvalue, Text.trim_append hbefore (hblank text b htext) hafter]
    exact (hparse text b).mpr htext
  · intro h
    obtain ⟨before, after, hvalue, hbefore, hafter⟩ := Text.exists_trim value.toList
    exact ⟨before, _, after, hvalue, hbefore, hafter, (hparse _ b).mp h⟩

theorem says_count_iff {value : String} {n : UInt64} :
    Says CountText value n ↔ parseCount (trim value.toList) = some n :=
  says_iff (fun _ _ => parseCount_eq_some_iff) fun _ _ h => h.not_blank

theorem says_switch_iff {value : String} {b : Bool} :
    Says SwitchText value b ↔ parseSwitch (trim value.toList) = some b :=
  says_iff (fun _ _ => parseSwitch_eq_some_iff) fun _ _ h => h.not_blank

/-! ## §3. One variable. -/

/-- A variable of which a use can be made: its value says what it is about, or it is none of
the two that are looked at. -/
inductive Usable : String × String → Prop where
  | maxNeeds {value : String} {n : UInt64} (h : Says CountText value n) :
      Usable (maxNeedsKey, value)
  | seedBlock {value : String} {b : Bool} (h : Says SwitchText value b) :
      Usable (seedBlockKey, value)
  | other {key value : String} (hmaxNeeds : key ≠ maxNeedsKey) (hseedBlock : key ≠ seedBlockKey) :
      Usable (key, value)

namespace Settings

theorem override_maxNeeds {value : String} {n : UInt64} (h : Says CountText value n)
    (s : Settings) : s.override maxNeedsKey value = .ok (s.limitedTo n) := by
  unfold override
  rw [if_pos rfl, says_count_iff.mp h]

theorem override_seedBlock {value : String} {b : Bool} (h : Says SwitchText value b)
    (s : Settings) : s.override seedBlockKey value = .ok (s.deferringBlock b) := by
  unfold override
  rw [if_neg (by decide), if_pos rfl, says_switch_iff.mp h]

theorem override_other {key : String} (hmaxNeeds : key ≠ maxNeedsKey)
    (hseedBlock : key ≠ seedBlockKey) (s : Settings) (value : String) :
    s.override key value = .ok s := by
  unfold override
  rw [if_neg hmaxNeeds, if_neg hseedBlock]

/-- A value of which no use can be made is reported as it was given. -/
theorem override_of_not_usable {key value : String} (h : ¬Usable (key, value)) (s : Settings) :
    s.override key value = .error (.invalidOverride key value) := by
  unfold override
  by_cases hmaxNeeds : key = maxNeedsKey
  · subst hmaxNeeds
    rw [if_pos rfl]
    cases hcount : parseCount (trim value.toList) with
    | some n => exact absurd (.maxNeeds (says_count_iff.mpr hcount)) h
    | none => rfl
  · by_cases hseedBlock : key = seedBlockKey
    · subst hseedBlock
      rw [if_neg hmaxNeeds, if_pos rfl]
      cases hswitch : parseSwitch (trim value.toList) with
      | some b => exact absurd (.seedBlock (says_switch_iff.mpr hswitch)) h
      | none => rfl
    · exact absurd (.other hmaxNeeds hseedBlock) h

end Settings

/-! ## §4. The first variable that cannot be used. -/

/-- The first variable of which no use can be made. -/
def FirstUnusable (vars : List (String × String)) (v : String × String) : Prop :=
  ∃ before after, vars = before ++ v :: after ∧ (∀ u ∈ before, Usable u) ∧ ¬Usable v

namespace FirstUnusable

variable {vars : List (String × String)} {u v : String × String}

theorem not_nil : ¬FirstUnusable [] v := by
  rintro ⟨before, after, hvars, -⟩
  simp at hvars

theorem mem_and_not_usable (h : FirstUnusable vars v) : v ∈ vars ∧ ¬Usable v := by
  obtain ⟨before, after, rfl, -, hv⟩ := h
  exact ⟨by simp, hv⟩

theorem cons_of_usable_iff (hu : Usable u) :
    FirstUnusable (u :: vars) v ↔ FirstUnusable vars v := by
  constructor
  · rintro ⟨before, after, hvars, hbefore, hv⟩
    rcases List.cons_eq_append_iff.mp hvars with ⟨-, hfirst⟩ | ⟨before, rfl, hrest⟩
    · obtain ⟨rfl, -⟩ := List.cons.inj hfirst
      exact absurd hu hv
    · exact ⟨before, after, hrest, (List.forall_mem_cons.mp hbefore).2, hv⟩
  · rintro ⟨before, after, rfl, hbefore, hv⟩
    exact ⟨u :: before, after, rfl, List.forall_mem_cons.mpr ⟨hu, hbefore⟩, hv⟩

theorem cons_of_not_usable_iff (hu : ¬Usable u) : FirstUnusable (u :: vars) v ↔ v = u := by
  constructor
  · rintro ⟨before, after, hvars, hbefore, -⟩
    rcases List.cons_eq_append_iff.mp hvars with ⟨-, hfirst⟩ | ⟨before, rfl, -⟩
    · exact (List.cons.inj hfirst).1
    · exact absurd (hbefore u List.mem_cons_self) hu
  · rintro rfl
    exact ⟨[], vars, rfl, nofun, hu⟩

end FirstUnusable

/-! ## §5. All variables. -/

/-- What the variables of a key make of a setting: what the last of them says, and nothing if
there is none. -/
inductive LastSays {β : Type} (Means : List Char → β → Prop) (key : String)
    (vars : List (String × String)) (old : β) : β → Prop where
  | stays (hnone : ∀ v ∈ vars, v.1 ≠ key) : LastSays Means key vars old old
  | last {before after : List (String × String)} {value : String} {b : β}
      (hvars : vars = before ++ (key, value) :: after) (hafter : ∀ v ∈ after, v.1 ≠ key)
      (hvalue : Says Means value b) : LastSays Means key vars old b

namespace LastSays

variable {β : Type} {Means : List Char → β → Prop} {key : String}
  {vars vars' : List (String × String)} {old b : β}

theorem nil_iff : LastSays Means key [] old b ↔ b = old := by
  constructor
  · intro h
    cases h with
    | stays => rfl
    | last hvars => simp at hvars
  · rintro rfl
    exact .stays nofun

/-- A variable of another key makes no difference. -/
theorem cons_of_ne_iff {v : String × String} (hv : v.1 ≠ key) :
    LastSays Means key (v :: vars) old b ↔ LastSays Means key vars old b := by
  constructor
  · intro h
    cases h with
    | stays hnone => exact .stays fun u hu => hnone u (List.mem_cons_of_mem v hu)
    | last hvars hafter hvalue =>
        rcases List.cons_eq_append_iff.mp hvars with ⟨-, hfirst⟩ | ⟨before, -, hrest⟩
        · obtain ⟨rfl, -⟩ := List.cons.inj hfirst
          exact absurd rfl hv
        · exact .last hrest hafter hvalue
  · intro h
    cases h with
    | stays hnone => exact .stays (List.forall_mem_cons.mpr ⟨hv, hnone⟩)
    | @last before after value _ hvars hafter hvalue =>
        have hvars' : v :: vars = (v :: before) ++ (key, value) :: after := by
          rw [hvars, List.cons_append]
        exact .last hvars' hafter hvalue

/-- A variable of the key takes the place of the old setting. -/
theorem cons_self_iff {value : String} {c : β} (hvalue : ∀ d, Says Means value d ↔ d = c) :
    LastSays Means key ((key, value) :: vars) old b ↔ LastSays Means key vars c b := by
  constructor
  · intro h
    cases h with
    | stays hnone => exact absurd rfl (hnone (key, value) List.mem_cons_self)
    | last hvars hafter hlast =>
        rcases List.cons_eq_append_iff.mp hvars with ⟨-, hfirst⟩ | ⟨before, -, hrest⟩
        · -- the first variable is the last one of the key
          obtain ⟨⟨⟩, rfl⟩ := List.cons.inj hfirst
          rw [(hvalue b).mp hlast]
          exact .stays hafter
        · exact .last hrest hafter hlast
  · intro h
    cases h with
    | stays hnone => exact .last (List.nil_append _).symm hnone ((hvalue _).mpr rfl)
    | @last before after value' _ hvars hafter hlast =>
        have hvars' : (key, value) :: vars =
            ((key, value) :: before) ++ (key, value') :: after := by
          rw [hvars, List.cons_append]
        exact .last hvars' hafter hlast

/-- Where no key is given twice, there is no choice of a last variable. -/
theorem reordered (h : LastSays Means key vars old b) (hkeys : (vars.map (·.1)).Nodup)
    (hperm : vars.Perm vars') : LastSays Means key vars' old b := by
  cases h with
  | stays hnone => exact .stays fun v hv => hnone v (hperm.mem_iff.mpr hv)
  | @last before after value _ hvars hafter hvalue =>
      have hmem : (key, value) ∈ vars' := by
        rw [← hperm.mem_iff, hvars]
        simp
      obtain ⟨before', after', hsplit⟩ := List.append_of_mem hmem
      -- the key stands there once, so it does not stand behind that variable
      have hkeys' := (hperm.map (·.1)).nodup_iff.mp hkeys
      rw [hsplit, List.map_append, List.nodup_append, List.map_cons, List.nodup_cons] at hkeys'
      refine .last hsplit ?_ hvalue
      intro v hv heq
      have hagain : v.1 ∈ after'.map (·.1) := List.mem_map_of_mem hv
      rw [heq] at hagain
      exact hkeys'.2.1.1 hagain

theorem again (h : LastSays Means key vars old b) : LastSays Means key vars b b := by
  cases h with
  | stays hnone => exact .stays hnone
  | last hvars hafter hvalue => exact .last hvars hafter hvalue

end LastSays

/-- Settings as variables make them from others: each of the two that can be overridden is
what the last variable about it says, and the listed projects stay. -/
@[mk_iff]
structure Overridden (s : Settings) (vars : List (String × String)) (t : Settings) : Prop where
  maxNeeds : LastSays CountText maxNeedsKey vars s.maxNeeds t.maxNeeds
  enabled : LastSays SwitchText seedBlockKey vars s.features.seedBlockAfterWorkflowRules.enabled
    t.features.seedBlockAfterWorkflowRules.enabled
  projects : t.features.seedBlockAfterWorkflowRules.projects =
    s.features.seedBlockAfterWorkflowRules.projects

theorem maxNeedsKey_ne_seedBlockKey : maxNeedsKey ≠ seedBlockKey := by
  decide

namespace Overridden

variable {s t : Settings} {vars : List (String × String)} {v : String × String}

theorem nil_iff : Overridden s [] t ↔ t = s := by
  constructor
  · intro h
    obtain ⟨hmaxNeeds, henabled, hprojects⟩ := h
    obtain ⟨n, ⟨⟨b, ids⟩⟩⟩ := s
    obtain ⟨n', ⟨⟨b', ids'⟩⟩⟩ := t
    simp_all [LastSays.nil_iff]
  · rintro rfl
    exact ⟨LastSays.nil_iff.mpr rfl, LastSays.nil_iff.mpr rfl, rfl⟩

theorem cons_maxNeeds_iff {value : String} {n : UInt64} (h : Says CountText value n) :
    Overridden s ((maxNeedsKey, value) :: vars) t ↔ Overridden (s.limitedTo n) vars t := by
  have hvalue : ∀ m, Says CountText value m ↔ m = n := by
    intro m
    rw [says_count_iff, says_count_iff.mp h, Option.some_inj, eq_comm]
  rw [overridden_iff, overridden_iff, LastSays.cons_self_iff hvalue,
    LastSays.cons_of_ne_iff maxNeedsKey_ne_seedBlockKey]
  rfl

theorem cons_seedBlock_iff {value : String} {b : Bool} (h : Says SwitchText value b) :
    Overridden s ((seedBlockKey, value) :: vars) t ↔ Overridden (s.deferringBlock b) vars t := by
  have hvalue : ∀ c, Says SwitchText value c ↔ c = b := by
    intro c
    rw [says_switch_iff, says_switch_iff.mp h, Option.some_inj, eq_comm]
  rw [overridden_iff, overridden_iff, LastSays.cons_self_iff hvalue,
    LastSays.cons_of_ne_iff maxNeedsKey_ne_seedBlockKey.symm]
  rfl

theorem cons_other_iff (hmaxNeeds : v.1 ≠ maxNeedsKey) (hseedBlock : v.1 ≠ seedBlockKey) :
    Overridden s (v :: vars) t ↔ Overridden s vars t := by
  rw [overridden_iff, overridden_iff, LastSays.cons_of_ne_iff hmaxNeeds,
    LastSays.cons_of_ne_iff hseedBlock]

theorem reordered {vars' : List (String × String)} (h : Overridden s vars t)
    (hkeys : (vars.map (·.1)).Nodup) (hperm : vars.Perm vars') : Overridden s vars' t :=
  ⟨h.maxNeeds.reordered hkeys hperm, h.enabled.reordered hkeys hperm, h.projects⟩

/-- The same variables once more change nothing. -/
theorem again (h : Overridden s vars t) : Overridden t vars t :=
  ⟨h.maxNeeds.again, h.enabled.again, rfl⟩

end Overridden

namespace Settings

theorem overrideAll_eq_ok_iff {vars : List (String × String)} : ∀ {s t : Settings},
    s.overrideAll vars = .ok t ↔ (∀ v ∈ vars, Usable v) ∧ Overridden s vars t := by
  induction vars with
  | nil =>
      intro s t
      rw [overrideAll, Except.ok.injEq, Overridden.nil_iff, eq_comm]
      simp
  | cons v vars ih =>
      intro s t
      obtain ⟨key, value⟩ := v
      rw [List.forall_mem_cons, overrideAll]
      by_cases hv : Usable (key, value)
      · cases hv with
        | maxNeeds hn =>
            rw [override_maxNeeds hn, Overridden.cons_maxNeeds_iff hn]
            simp [Usable.maxNeeds hn, ih]
        | seedBlock hb =>
            rw [override_seedBlock hb, Overridden.cons_seedBlock_iff hb]
            simp [Usable.seedBlock hb, ih]
        | other hmaxNeeds hseedBlock =>
            rw [override_other hmaxNeeds hseedBlock,
              Overridden.cons_other_iff hmaxNeeds hseedBlock]
            simp [Usable.other hmaxNeeds hseedBlock, ih]
      · rw [override_of_not_usable hv]
        simp [hv]

theorem exists_override_of_usable {key value : String} (h : Usable (key, value)) (s : Settings) :
    ∃ t, s.override key value = .ok t := by
  cases h with
  | maxNeeds hn => exact ⟨_, override_maxNeeds hn s⟩
  | seedBlock hb => exact ⟨_, override_seedBlock hb s⟩
  | other hmaxNeeds hseedBlock => exact ⟨s, override_other hmaxNeeds hseedBlock s value⟩

theorem overrideAll_eq_error_iff {vars : List (String × String)} {e : SettingsError} :
    ∀ {s : Settings}, s.overrideAll vars = .error e ↔
      ∃ v, FirstUnusable vars v ∧ e = .invalidOverride v.1 v.2 := by
  induction vars with
  | nil =>
      intro s
      simp [overrideAll, FirstUnusable.not_nil]
  | cons v vars ih =>
      intro s
      obtain ⟨key, value⟩ := v
      rw [overrideAll]
      by_cases hv : Usable (key, value)
      · obtain ⟨t, ht⟩ := exists_override_of_usable hv s
        simp [ht, ih, FirstUnusable.cons_of_usable_iff hv]
      · simp [override_of_not_usable hv, FirstUnusable.cons_of_not_usable_iff hv, eq_comm]

/-- Variables go through exactly if use can be made of every one of them. -/
theorem exists_overrideAll_iff {s : Settings} {vars : List (String × String)} :
    (∃ t, s.overrideAll vars = .ok t) ↔ ∀ v ∈ vars, Usable v := by
  constructor
  · rintro ⟨t, ht⟩
    exact (overrideAll_eq_ok_iff.mp ht).1
  · intro h
    cases hall : s.overrideAll vars with
    | ok t => exact ⟨t, rfl⟩
    | error e =>
        obtain ⟨v, hv, -⟩ := overrideAll_eq_error_iff.mp hall
        exact absurd (h v hv.mem_and_not_usable.1) hv.mem_and_not_usable.2

/-- Variables that nothing looks at can be left out. -/
theorem overrideAll_filter (vars : List (String × String)) : ∀ s : Settings,
    s.overrideAll (vars.filter fun v => v.1 = maxNeedsKey ∨ v.1 = seedBlockKey) =
      s.overrideAll vars := by
  induction vars with
  | nil => exact fun _ => rfl
  | cons v vars ih =>
      intro s
      obtain ⟨key, value⟩ := v
      rw [List.filter_cons]
      by_cases hkey : key = maxNeedsKey ∨ key = seedBlockKey
      · rw [if_pos (decide_eq_true hkey), overrideAll, overrideAll]
        cases s.override key value with
        | ok t => exact ih t
        | error e => rfl
      · obtain ⟨hmaxNeeds, hseedBlock⟩ := not_or.mp hkey
        rw [if_neg (by simpa using hkey), ih, overrideAll, override_other hmaxNeeds hseedBlock]

/-! ## §6. The order of variables. -/

/-- **Overriding settings does not depend on the order of the variables**, of which none is given
twice in an environment; and whichever list of variables it is, the same ones once more change
nothing, the listed projects stay, variables of other keys have no effect, what the last variable
about a setting says counts, and the first one that cannot be used is reported as it was given. -/
theorem overrideAll_unordered (s : Settings) (vars : List (String × String)) :
    ((vars.map (·.1)).Nodup → ∀ vars', vars.Perm vars' →
      ∀ t, s.overrideAll vars' = .ok t ↔ s.overrideAll vars = .ok t) ∧
    (∀ t, s.overrideAll vars = .ok t → t.overrideAll vars = .ok t) ∧
    (∀ t, s.overrideAll vars = .ok t → t.features.seedBlockAfterWorkflowRules.projects =
      s.features.seedBlockAfterWorkflowRules.projects) ∧
    s.overrideAll (vars.filter fun v => v.1 = maxNeedsKey ∨ v.1 = seedBlockKey) =
      s.overrideAll vars ∧
    ((∃ t, s.overrideAll vars = .ok t) ↔ ∀ v ∈ vars, Usable v) ∧
    (∀ t, s.overrideAll vars = .ok t ↔ (∀ v ∈ vars, Usable v) ∧ Overridden s vars t) ∧
    ∀ e, s.overrideAll vars = .error e ↔
      ∃ v, FirstUnusable vars v ∧ e = .invalidOverride v.1 v.2 := by
  refine ⟨?_, ?_, ?_, ?_, ?_, ?_, ?_⟩
  · intro hkeys vars' hperm t
    have hkeys' : (vars'.map (·.1)).Nodup := (hperm.map (·.1)).nodup_iff.mp hkeys
    rw [overrideAll_eq_ok_iff, overrideAll_eq_ok_iff]
    constructor
    · rintro ⟨husable, h⟩
      exact ⟨fun v hv => husable v (hperm.mem_iff.mp hv), h.reordered hkeys' hperm.symm⟩
    · rintro ⟨husable, h⟩
      exact ⟨fun v hv => husable v (hperm.mem_iff.mpr hv), h.reordered hkeys hperm⟩
  · intro t ht
    obtain ⟨husable, h⟩ := overrideAll_eq_ok_iff.mp ht
    exact overrideAll_eq_ok_iff.mpr ⟨husable, h.again⟩
  · exact fun t ht => (overrideAll_eq_ok_iff.mp ht).2.projects
  · exact overrideAll_filter vars s
  · exact exists_overrideAll_iff
  · exact fun t => overrideAll_eq_ok_iff
  · exact fun e => overrideAll_eq_error_iff

/-- The last limit counts, a switch is read in any case, and blanks do not matter. -/
example :
    standard.overrideAll
      [(maxNeedsKey, "7"), ("HOME", "/"), (seedBlockKey, "\tYES"), (maxNeedsKey, " +20 ")] =
      .ok ((standard.limitedTo 20).deferringBlock true) := by
  rfl

end Settings

end CiPipeline
