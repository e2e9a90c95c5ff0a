/-
  CiPipeline.Json.Doc
  ───────────────────
  **A JSON text as a reader finds it: a tree that may break off.**

  A reader goes through a text from left to right and stops at the first problem
  it meets.  Whether a piece of text is a problem depends on what the reader does
  with it: a value that is kept must be sound in every detail, one that is skipped
  may hold half a surrogate pair, a number beyond all floating-point numbers, or
  any depth of nesting.  So a text is first laid out as a tree in which a broken
  piece says what it means to a reader that keeps it and to one that skips it,
  and the readers of single types then walk that tree in the order of the text.

  Main statement: `value_of_alike`, a canonical value is kept as it is, in whatever
  order its members are found.
-/
import CiPipeline.Json.Alike

namespace CiPipeline.Json

/-! ## §1. The tree. -/

/-- How a text fails to be JSON: a wrong character, or its end too early. -/
inductive Break where
  | malformed
  | truncated
  deriving DecidableEq, Repr

/-- A piece between quotes: the text it stands for, or what is wrong with it for
a reader that keeps it and for one that skips it (if anything). -/
inductive Quoted where
  | plain (text : String)
  | torn (kept : Break) (skipped : Option Break)
  deriving DecidableEq

/-- How the items of an array or the members of an object end. -/
inductive Ending where
  | closed
  | broken (fault : Break)
  deriving DecidableEq

/-- A JSON text as a tree. -/
inductive Doc where
  | null
  | bool (value : Bool)
  | number (value : Number)
  | text (piece : Quoted)
  /-- A piece that starts neither a text nor an array nor an object and is broken. -/
  | torn (kept : Break) (skipped : Option Break)
  /-- A broken piece that starts like the word for null. -/
  | tornNull (fault : Break)
  /-- The end of the text, where a value should start. -/
  | missing
  | array (items : List Doc) (ending : Ending)
  | object (members : List (Quoted × Doc)) (ending : Ending)
  /-- An object that starts with something other than a key. -/
  | keyless (found : Doc)
  /-- An array or object that is nested deeper than a kept value may be. -/
  | tooDeep (inner : Doc)
  deriving Inhabited

/-! ## §2. Skipping a value. -/

/-- What a reader that skips a quoted piece makes of it. -/
def Quoted.skip : Quoted → Except Break Unit
  | .plain _ => .ok ()
  | .torn _ none => .ok ()
  | .torn _ (some b) => .error b

/-- What a reader that keeps a quoted piece makes of it. -/
def Quoted.keep : Quoted → Except Break String
  | .plain s => .ok s
  | .torn b _ => .error b

/-- The closing bracket is there. -/
def Ending.check : Ending → Except Break Unit
  | .closed => .ok ()
  | .broken b => .error b

namespace Doc

mutual

/-- Passes over a value: only its brackets, numbers, words and quotes have to be
sound. -/
def skip : Doc → Except Break Unit
  | .null | .bool _ | .number _ => .ok ()
  | .text piece => piece.skip
  | .torn _ none => .ok ()
  | .torn _ (some b) => .error b
  | .tornNull b => .error b
  | .missing => .error .truncated
  | .array items ending => do
      skipItems items
      ending.check
  | .object members ending => do
      skipMembers members
      ending.check
  | .keyless _ => .error .malformed
  | .tooDeep inner => inner.skip

/-- Passes over items. -/
def skipItems : List Doc → Except Break Unit
  | [] => .ok ()
  | item :: items => do
      item.skip
      skipItems items

/-- Passes over members. -/
def skipMembers : List (Quoted × Doc) → Except Break Unit
  | [] => .ok ()
  | (key, value) :: members => do
      key.skip
      value.skip
      skipMembers members

end

/-! ## §3. Keeping a value. -/

mutual

/-- The value that a text stands for.  Of several members under one key the last
one counts. -/
def value : Doc → Except Break Value
  | .null => .ok .null
  | .bool b => .ok (.ofBool b)
  | .number n => .ok (.ofNumber n)
  | .text piece => piece.keep.map .ofString
  | .torn kept _ => .error kept
  | .tornNull b => .error b
  | .missing => .error .truncated
  | .array items ending => do
      let items ← valueItems items
      ending.check
      .ok (.array items)
  | .object members ending => do
      let entries ← valueMembers members
      ending.check
      .ok (.object (.ofList entries))
  | .keyless _ => .error .malformed
  | .tooDeep _ => .error .malformed

/-- The values of items. -/
def valueItems : List Doc → Except Break (List Value)
  | [] => .ok []
  | item :: items => do
      let first ← item.value
      let rest ← valueItems items
      .ok (first :: rest)

/-- The keys and values of members. -/
def valueMembers : List (Quoted × Doc) → Except Break (List (String × Value))
  | [] => .ok []
  | (key, value) :: members => do
      let key ← key.keep
      let first ← value.value
      let rest ← valueMembers members
      .ok ((key, first) :: rest)

end

/-! ## §4. The tree of a value. -/

mutual

/-- The tree of a value that is written without a flaw. -/
def ofJson : Json → Doc
  | .null => .null
  | .bool b => .bool b
  | .number n => .number n
  | .string s => .text (.plain s)
  | .array items => .array (ofItems items) .closed
  | .object members => .object (ofMembers members) .closed

/-- The trees of items. -/
def ofItems : List Json → List Doc
  | [] => []
  | item :: items => ofJson item :: ofItems items

/-- The trees of members. -/
def ofMembers : List (String × Json) → List (Quoted × Doc)
  | [] => []
  | (key, value) :: members => (.plain key, ofJson value) :: ofMembers members

end

/-! ## §5. Values that are written without a flaw. -/

mutual

/-- A value that is written without a flaw is kept. -/
theorem exists_value : ∀ j : Json, ∃ v, (ofJson j).value = .ok v
  | .null => ⟨.null, by simp [ofJson, value]⟩
  | .bool b => ⟨.ofBool b, by simp [ofJson, value]⟩
  | .number n => ⟨.ofNumber n, by simp [ofJson, value]⟩
  | .string s => ⟨.ofString s, by simp [ofJson, value, Quoted.keep, Except.map]⟩
  | .array items => by
      obtain ⟨vs, hvs⟩ := exists_valueItems items
      exact ⟨.array vs, by simp [ofJson, value, hvs, Ending.check, bind, Except.bind]⟩
  | .object members => by
      obtain ⟨es, hes⟩ := exists_valueMembers members
      exact ⟨.object (.ofList es), by simp [ofJson, value, hes, Ending.check, bind, Except.bind]⟩

theorem exists_valueItems : ∀ items : List Json, ∃ vs, valueItems (ofItems items) = .ok vs
  | [] => ⟨[], by simp [ofItems, valueItems]⟩
  | item :: items => by
      obtain ⟨v, hv⟩ := exists_value item
      obtain ⟨vs, hvs⟩ := exists_valueItems items
      exact ⟨v :: vs, by simp [ofItems, valueItems, hv, hvs, bind, Except.bind]⟩

theorem exists_valueMembers : ∀ members : List (String × Json),
    ∃ es, valueMembers (ofMembers members) = .ok es
  | [] => ⟨[], by simp [ofMembers, valueMembers]⟩
  | (key, j) :: members => by
      obtain ⟨v, hv⟩ := exists_value j
      obtain ⟨es, hes⟩ := exists_valueMembers members
      exact ⟨(key, v) :: es, by
        simp [ofMembers, valueMembers, Quoted.keep, hv, hes, bind, Except.bind]⟩

end

mutual

/-- A value that is written without a flaw is passed over. -/
theorem skip_ofJson : ∀ j : Json, (ofJson j).skip = .ok ()
  | .null | .bool _ | .number _ => by simp [ofJson, skip]
  | .string _ => by simp [ofJson, skip, Quoted.skip]
  | .array items => by
      simp [ofJson, skip, skipItems_ofItems items, Ending.check, bind, Except.bind]
  | .object members => by
      simp [ofJson, skip, skipMembers_ofMembers members, Ending.check, bind, Except.bind]

theorem skipItems_ofItems : ∀ items : List Json, skipItems (ofItems items) = .ok ()
  | [] => by simp [ofItems, skipItems]
  | item :: items => by
      simp [ofItems, skipItems, skip_ofJson item, skipItems_ofItems items, bind, Except.bind]

theorem skipMembers_ofMembers : ∀ members : List (String × Json),
    skipMembers (ofMembers members) = .ok ()
  | [] => by simp [ofMembers, skipMembers]
  | (_, j) :: members => by
      simp [ofMembers, skipMembers, Quoted.skip, skip_ofJson j, skipMembers_ofMembers members,
        bind, Except.bind]

end

theorem valueMembers_ofMembers (members : List (String × Json)) :
    valueMembers (ofMembers members) =
      members.mapM fun m => (ofJson m.2).value.map fun v => (m.1, v) := by
  induction members with
  | nil => simp [ofMembers, valueMembers, pure, Except.pure]
  | cons m members ih =>
    obtain ⟨key, j⟩ := m
    rw [List.mapM_cons, ← ih]
    simp only [ofMembers, valueMembers, Quoted.keep, bind, Except.bind, pure, Except.pure,
      Except.map]
    cases (ofJson j).value <;> rfl

mutual

private theorem value_of_alike_aux : ∀ (j : Json) (h : j.Canonical) (k : Json), j.Alike k →
    (ofJson k).value = .ok ⟨j, h⟩
  | .null, _, k, hk => by
      rw [Alike] at hk
      simp [hk, ofJson, value, Value.null]
  | .bool b, _, k, hk => by
      rw [Alike] at hk
      simp [hk, ofJson, value, Value.ofBool]
  | .number n, _, k, hk => by
      rw [Alike] at hk
      simp [hk, ofJson, value, Value.ofNumber]
  | .string s, _, k, hk => by
      rw [Alike] at hk
      simp [hk, ofJson, value, Quoted.keep, Except.map, Value.ofString]
  | .array items, h, k, hk => by
      have hitems : CanonicalItems items := by simpa [Canonical] using h
      rw [Alike] at hk
      obtain ⟨items', rfl, hitems'⟩ := hk
      obtain ⟨vs, hvs, hmap⟩ := valueItems_of_alike items hitems items' hitems'
      simp only [ofJson, value, hvs, Ending.check, bind, Except.bind]
      exact congrArg Except.ok (Value.ext (by simp [Value.array, hmap]))
  | .object members, h, k, hk => by
      have hmembers : (members.Pairwise fun a b => a.1 < b.1) ∧ CanonicalMembers members := by
        simpa [Canonical] using h
      rw [Alike] at hk
      obtain ⟨members', ordered, rfl, hmembers', hordered⟩ := hk
      obtain ⟨es, hes, hmap⟩ := valueMembers_of_alike members hmembers.2 members' hmembers'
      have hsorted : es.Pairwise fun a b => a.1 < b.1 := by
        have h1 := hmembers.1
        rw [← hmap, List.pairwise_map] at h1
        exact h1
      -- in another order the same entries are found, and make the same dictionary
      rw [valueMembers_ofMembers] at hes
      obtain ⟨es', hperm, hes'⟩ := mapM_of_perm hordered hes
      rw [← valueMembers_ofMembers] at hes'
      have hdict : Dict.ofList es' = ⟨es, hsorted⟩ := Dict.ofList_of_perm hperm.symm
      simp only [ofJson, value, hes', Ending.check, bind, Except.bind]
      refine congrArg Except.ok (Value.ext ?_)
      show Json.object ((Dict.ofList es').entries.map _) = _
      rw [hdict, hmap]

private theorem valueItems_of_alike : ∀ (items : List Json), CanonicalItems items →
    ∀ ks, AlikeItems items ks → ∃ vs, valueItems (ofItems ks) = .ok vs ∧ vs.map Value.json = items
  | [], _, ks, hks => by
      rw [AlikeItems] at hks
      exact ⟨[], by simp [hks, ofItems, valueItems]⟩
  | item :: items, h, ks, hks => by
      have h' : item.Canonical ∧ CanonicalItems items := by simpa [CanonicalItems] using h
      rw [AlikeItems] at hks
      obtain ⟨k, ks', rfl, hk, hks'⟩ := hks
      obtain ⟨vs, hvs, hmap⟩ := valueItems_of_alike items h'.2 ks' hks'
      refine ⟨⟨item, h'.1⟩ :: vs, ?_, by simp [hmap]⟩
      simp only [ofItems, valueItems, value_of_alike_aux item h'.1 k hk, hvs, bind, Except.bind]

private theorem valueMembers_of_alike : ∀ (members : List (String × Json)),
    CanonicalMembers members → ∀ ks, AlikeMembers members ks →
    ∃ es, valueMembers (ofMembers ks) = .ok es ∧
      es.map (fun e => (e.1, e.2.json)) = members
  | [], _, ks, hks => by
      rw [AlikeMembers] at hks
      exact ⟨[], by simp [hks, ofMembers, valueMembers]⟩
  | (key, j) :: members, h, ks, hks => by
      have h' : j.Canonical ∧ CanonicalMembers members := by simpa [CanonicalMembers] using h
      rw [AlikeMembers] at hks
      obtain ⟨k, ks', rfl, hk, hks'⟩ := hks
      obtain ⟨es, hes, hmap⟩ := valueMembers_of_alike members h'.2 ks' hks'
      refine ⟨(key, ⟨j, h'.1⟩) :: es, ?_, by simp [hmap]⟩
      simp only [ofMembers, valueMembers, Quoted.keep, value_of_alike_aux j h'.1 k hk, hes, bind,
        Except.bind]

end

/-- **A canonical value is kept as it is**, in whatever order its members are found. -/
theorem value_of_alike {v : Value} {k : Json} (h : v.json.Alike k) : (ofJson k).value = .ok v :=
  value_of_alike_aux v.json v.canonical k h

end Doc

end CiPipeline.Json
