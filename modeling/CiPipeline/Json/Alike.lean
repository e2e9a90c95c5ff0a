/-
  CiPipeline.Json.Alike
  ─────────────────────
  **JSON values that say the same.**

  The members of an object stand in some order in a text, but the object does not depend on
  it.  Two values are alike when they differ in nothing else, at any depth.
-/
import CiPipeline.Json.Value

namespace CiPipeline.Json

/-! ## §1. Alike values. -/

mutual

/-- The values differ in nothing but the order in which members of objects stand. -/
def Alike : Json → Json → Prop
  | .null, k => k = .null
  | .bool b, k => k = .bool b
  | .number n, k => k = .number n
  | .string s, k => k = .string s
  | .array items, k => ∃ items', k = .array items' ∧ AlikeItems items items'
  | .object members, k =>
      ∃ members' ordered, k = .object ordered ∧ AlikeMembers members members' ∧
        members'.Perm ordered

/-- The items are alike, one by one. -/
def AlikeItems : List Json → List Json → Prop
  | [], ks => ks = []
  | item :: items, ks => ∃ k ks', ks = k :: ks' ∧ Alike item k ∧ AlikeItems items ks'

/-- The members are alike, one by one, and under the same keys. -/
def AlikeMembers : List (String × Json) → List (String × Json) → Prop
  | [], ks => ks = []
  | (key, value) :: members, ks =>
      ∃ k ks', ks = (key, k) :: ks' ∧ Alike value k ∧ AlikeMembers members ks'

end

mutual

theorem alike_refl : ∀ j : Json, j.Alike j
  | .null | .bool _ | .number _ | .string _ => by simp [Alike]
  | .array items => by
      rw [Alike]
      exact ⟨items, rfl, alikeItems_refl items⟩
  | .object members => by
      rw [Alike]
      exact ⟨members, members, rfl, alikeMembers_refl members, .refl _⟩

theorem alikeItems_refl : ∀ items : List Json, AlikeItems items items
  | [] => by simp [AlikeItems]
  | item :: items => by
      rw [AlikeItems]
      exact ⟨item, items, rfl, alike_refl item, alikeItems_refl items⟩

theorem alikeMembers_refl : ∀ members : List (String × Json), AlikeMembers members members
  | [] => by simp [AlikeMembers]
  | (key, value) :: members => by
      rw [AlikeMembers]
      exact ⟨value, members, rfl, alike_refl value, alikeMembers_refl members⟩

end

/-- Nothing but null is alike to null. -/
theorem eq_null_of_alike {j : Json} (h : j.Alike .null) : j = .null := by
  cases j <;> simp [Alike] at h ⊢

/-! ## §2. Reading in another order. -/

theorem mapM_cons_eq_ok {ε α β : Type} {f : α → Except ε β} {a : α} {as : List α}
    {bs : List β} :
    (a :: as).mapM f = .ok bs ↔ ∃ b bs', f a = .ok b ∧ as.mapM f = .ok bs' ∧ bs = b :: bs' := by
  rw [List.mapM_cons]
  cases f a with
  | error e => simp [bind, Except.bind]
  | ok b =>
    cases as.mapM f with
    | error e => simp [bind, Except.bind]
    | ok bs' => simp [bind, Except.bind, pure, Except.pure, eq_comm]

/-- Items that can all be read can be read in another order, with the same results in that
order. -/
theorem mapM_of_perm {ε α β : Type} {f : α → Except ε β} {as as' : List α} (h : as.Perm as') :
    ∀ {bs : List β}, as.mapM f = .ok bs → ∃ bs', bs.Perm bs' ∧ as'.mapM f = .ok bs' := by
  induction h with
  | nil => exact fun hbs => ⟨_, .refl _, hbs⟩
  | cons a _ ih =>
    intro bs hbs
    obtain ⟨b, bs₁, hb, hbs₁, rfl⟩ := mapM_cons_eq_ok.mp hbs
    obtain ⟨bs₂, hperm, hbs₂⟩ := ih hbs₁
    exact ⟨b :: bs₂, hperm.cons b, mapM_cons_eq_ok.mpr ⟨b, bs₂, hb, hbs₂, rfl⟩⟩
  | swap a a' as =>
    intro bs hbs
    obtain ⟨b', bs₁, hb', hbs₁, rfl⟩ := mapM_cons_eq_ok.mp hbs
    obtain ⟨b, bs₂, hb, hbs₂, rfl⟩ := mapM_cons_eq_ok.mp hbs₁
    exact ⟨b :: b' :: bs₂, .swap b b' bs₂, mapM_cons_eq_ok.mpr
      ⟨b, b' :: bs₂, hb, mapM_cons_eq_ok.mpr ⟨b', bs₂, hb', hbs₂, rfl⟩, rfl⟩⟩
  | trans _ _ ih₁ ih₂ =>
    intro bs hbs
    obtain ⟨bs₁, hperm₁, hbs₁⟩ := ih₁ hbs
    obtain ⟨bs₂, hperm₂, hbs₂⟩ := ih₂ hbs₁
    exact ⟨bs₂, hperm₁.trans hperm₂, hbs₂⟩

end CiPipeline.Json
