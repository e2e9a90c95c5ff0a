/-
  CiPipeline.Json.Value
  ─────────────────────
  **JSON values.**

  A number is a whole number or a floating-point number, and the two are never
  equal: `1` and `1.0` are different values.  An object is a list of members; it
  is canonical when its keys increase, at every depth.  `Json.Value` is the type
  of canonical values: a value of it is determined by what its objects hold under
  each key.
-/
import CiPipeline.Dict
import CiPipeline.Decimal.Shortest

namespace CiPipeline

open Decimal (Binary64)

namespace Json

/-- A number: whole, or floating-point. -/
inductive Number where
  | integer (value : Int)
  | float (value : Binary64)
  deriving DecidableEq, Repr

end Json

/-- A JSON value, with the members of an object in the order of its text. -/
inductive Json where
  | null
  | bool (value : Bool)
  | number (value : Json.Number)
  | string (value : String)
  | array (items : List Json)
  | object (members : List (String × Json))
  deriving Inhabited

namespace Json

/-- A whole number. -/
abbrev int (n : Int) : Json := .number (.integer n)

/-- An array of strings. -/
def strings (texts : List String) : Json := .array (texts.map .string)

/-- A value, or `null` in its absence. -/
def ofOption {α : Type} (f : α → Json) : Option α → Json
  | some a => f a
  | none => .null

/-! ## §1. Canonical values. -/

mutual

/-- The keys of every object increase. -/
def Canonical : Json → Prop
  | .null | .bool _ | .number _ | .string _ => True
  | .array items => CanonicalItems items
  | .object members =>
      (members.Pairwise fun a b => a.1 < b.1) ∧ CanonicalMembers members

/-- All items are canonical. -/
def CanonicalItems : List Json → Prop
  | [] => True
  | item :: items => Canonical item ∧ CanonicalItems items

/-- All members are canonical. -/
def CanonicalMembers : List (String × Json) → Prop
  | [] => True
  | (_, value) :: members => Canonical value ∧ CanonicalMembers members

end

/-- A canonical JSON value. -/
structure Value where
  json : Json
  canonical : json.Canonical

namespace Value

/-- A canonical value is the JSON value that it is. -/
theorem ext {a b : Value} (h : a.json = b.json) : a = b := by
  cases a; cases b; cases h; rfl

instance : Inhabited Value := ⟨⟨.null, by simp [Canonical]⟩⟩

/-- A truth value. -/
def ofBool (b : Bool) : Value := ⟨.bool b, by simp [Canonical]⟩

/-- The null value. -/
def null : Value := ⟨.null, by simp [Canonical]⟩

/-- A number. -/
def ofNumber (n : Number) : Value := ⟨.number n, by simp [Canonical]⟩

/-- A string. -/
def ofString (s : String) : Value := ⟨.string s, by simp [Canonical]⟩

private theorem canonicalItems_map : ∀ items : List Value,
    CanonicalItems (items.map Value.json)
  | [] => by simp [CanonicalItems]
  | item :: items => by
      simp only [List.map_cons, CanonicalItems]
      exact ⟨item.canonical, canonicalItems_map items⟩

/-- An array of canonical values. -/
def array (items : List Value) : Value :=
  ⟨.array (items.map Value.json), by
    simp only [Canonical]
    exact canonicalItems_map items⟩

private theorem canonicalMembers_map : ∀ entries : List (String × Value),
    CanonicalMembers (entries.map fun e => (e.1, e.2.json))
  | [] => by simp [CanonicalMembers]
  | (_, value) :: entries => by
      simp only [List.map_cons, CanonicalMembers]
      exact ⟨value.canonical, canonicalMembers_map entries⟩

/-- An object that holds the entries of a dictionary. -/
def object (d : Dict Value) : Value :=
  ⟨.object (d.entries.map fun e => (e.1, e.2.json)), by
    simp only [Canonical]
    exact ⟨(d.mapValues Value.json).ordered, canonicalMembers_map d.entries⟩⟩

end Value

/-! ## §2. Looking into a value. -/

/-- The value under a key of an object; of several the last one counts. -/
def get? (j : Json) (key : String) : Option Json :=
  match j with
  | .object members => (members.reverse.find? fun m => m.1 = key).map (·.2)
  | _ => none

end Json

end CiPipeline
