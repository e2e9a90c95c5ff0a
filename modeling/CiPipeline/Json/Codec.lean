/-
  CiPipeline.Json.Codec
  ─────────────────────
  **Types with a written form.**

  A codec writes the values of a type as JSON and reads them from the tree of a
  text.  A codec is lawful when every value is read back from what it is written
  as, in whatever order the members of objects stand; the codecs of texts, numbers,
  options, lists and dictionaries are lawful, and the ones built from lawful codecs
  are again.
-/
import CiPipeline.Json.Fault
import CiPipeline.Json.Reader

namespace CiPipeline.Json

/-- A written form of a type. -/
structure Codec (α : Type) where
  encode : α → Json
  decode : Doc → Except Fault α

namespace Codec

/-- A value is read from JSON, in whatever order the members of objects stand. -/
def Reads {α : Type} (c : Codec α) (j : Json) (a : α) : Prop :=
  ∀ k, j.Alike k → c.decode (Doc.ofJson k) = .ok a

theorem Reads.decode_eq {α : Type} {c : Codec α} {j : Json} {a : α} (h : c.Reads j a) :
    c.decode (Doc.ofJson j) = .ok a :=
  h j (alike_refl j)

/-- Every value is read back from what it is written as. -/
def Lawful {α : Type} (c : Codec α) : Prop :=
  ∀ a : α, c.Reads (c.encode a) a

/-! ## §1. Values without parts. -/

/-- Texts. -/
def string : Codec String where
  encode := .string
  decode
    | .text piece => orBroken piece.keep
    | d => d.refuse "a string"

theorem string_lawful : string.Lawful := fun s k hk => by
  simp only [string, Alike] at hk
  simp [hk, string, Doc.ofJson, Quoted.keep, orBroken]

/-- Nothing but a text is read as one. -/
theorem decode_string_iff {j : Json} {s : String} :
    string.decode (Doc.ofJson j) = .ok s ↔ j = .string s := by
  cases j with
  | string => simp [string, Doc.ofJson, Quoted.keep, orBroken]
  | number n => cases n <;> simp [string, Doc.ofJson, Doc.refuse, Doc.found]
  | _ => simp [string, Doc.ofJson, Doc.refuse, Doc.found]

/-- Truth values. -/
def bool : Codec Bool where
  encode := .bool
  decode
    | .bool b => .ok b
    | d => d.refuse "a boolean"

theorem bool_lawful : bool.Lawful := fun b k hk => by
  simp only [bool, Alike] at hk
  simp [hk, bool, Doc.ofJson]

/-- Nothing but a truth value is read as one. -/
theorem decode_bool_iff {j : Json} {b : Bool} :
    bool.decode (Doc.ofJson j) = .ok b ↔ j = .bool b := by
  cases j with
  | bool => simp [bool, Doc.ofJson]
  | number n => cases n <;> simp [bool, Doc.ofJson, Doc.refuse, Doc.found]
  | string => simp [bool, Doc.ofJson, Doc.refuse, Doc.found, Quoted.keep, Except.map]
  | _ => simp [bool, Doc.ofJson, Doc.refuse, Doc.found]

/-- Whole numbers of 64 bits with a sign. -/
def int64 : Codec Int64 where
  encode n := .int n.toInt
  decode
    | .number (.integer n) =>
        if Int64.minValue.toInt ≤ n ∧ n ≤ Int64.maxValue.toInt then .ok (Int64.ofInt n)
        else .error (.mismatch (.invalidValue (.integer n) "i64"))
    | d => d.refuse "i64"

theorem int64_lawful : int64.Lawful := fun n k hk => by
  have h1 := Int64.minValue_le_toInt n
  have h2 := Int64.toInt_le n
  simp only [int64, int, Alike] at hk
  simp only [hk, int64, Doc.ofJson]
  rw [if_pos ⟨by simpa using h1, by simpa using h2⟩, Int64.ofInt_toInt]

/-- Whole numbers of 64 bits without a sign. -/
def uint64 : Codec UInt64 where
  encode n := .int n.toNat
  decode
    | .number (.integer n) =>
        if 0 ≤ n ∧ n.toNat < UInt64.size then .ok (UInt64.ofNat n.toNat)
        else .error (.mismatch (.invalidValue (.integer n) "usize"))
    | d => d.refuse "usize"

theorem uint64_lawful : uint64.Lawful := fun n k hk => by
  have h := n.toNat_lt_size
  simp only [uint64, int, Alike] at hk
  simp only [hk, uint64, Doc.ofJson]
  rw [if_pos ⟨Int.natCast_nonneg _, by simpa using h⟩]
  simp

/-- JSON values as they are. -/
def value : Codec Value where
  encode v := v.json
  decode d := orBroken d.value

theorem value_lawful : value.Lawful := fun v k hk => by
  simp [value, Doc.value_of_alike hk, orBroken]

/-! ## §2. Variants. -/

/-- Reads the null that may stand beside the name of a variant. -/
private def decodeUnit : Doc → Except Fault Unit
  | .null => .ok ()
  | d => d.refuse "unit"

/-- The variant of a name. -/
private def decodeName {α : Type} (cases : List (String × α)) (name : String) :
    Except Fault α :=
  match cases.find? fun c => c.1 = name with
  | some c => .ok c.2
  | none => .error (.mismatch (.unknownVariant name (cases.map (·.1))))

/-- A type of named variants, written as the name; an object with the name as its
only key and null under it is read as well. -/
def variants {α : Type} (cases : List (String × α)) (name : α → String) : Codec α where
  encode a := .string (name a)
  decode
    | .text piece => do
        let name ← orBroken piece.keep
        decodeName cases name
    | .object ((key, under) :: more) ending => do
        let name ← orBroken key.keep
        let a ← decodeName cases name
        decodeUnit under
        match more, ending with
        | [], .closed => .ok a
        | [], .broken b => .error (.broken b)
        | _ :: _, _ => .error (.broken .malformed)
    | .object [] (.broken b) => .error (.broken b)
    | .keyless found => found.refuse "variant identifier"
    | .missing => .error (.broken .truncated)
    | _ => .error (.broken .malformed)

theorem variants_lawful {α : Type} {cases : List (String × α)} {name : α → String}
    (h : ∀ a, (cases.find? fun c => c.1 = name a).map (·.2) = some a) :
    (variants cases name).Lawful := fun a k hk => by
  obtain ⟨c, hc, hca⟩ := Option.map_eq_some_iff.mp (h a)
  simp only [variants, Alike] at hk
  simp [hk, variants, Doc.ofJson, Quoted.keep, orBroken, decodeName, hc, hca, bind, Except.bind]

/-! ## §3. Values of values. -/

/-- A value or its absence; absence is written as null. -/
def option {α : Type} (c : Codec α) : Codec (Option α) where
  encode
    | some a => c.encode a
    | none => .null
  decode
    | .null => .ok none
    | .tornNull b => .error (.broken b)
    | d => (c.decode d).map some

/-- No value is written as null, so an absent value is told from all others. -/
def NeverNull {α : Type} (c : Codec α) : Prop :=
  ∀ a, c.encode a ≠ .null

theorem string_neverNull : string.NeverNull := fun s h => by simp [string] at h

theorem int64_neverNull : int64.NeverNull := fun n h => by simp [int64] at h

theorem uint64_neverNull : uint64.NeverNull := fun n h => by simp [uint64] at h

theorem variants_neverNull {α : Type} (cases : List (String × α)) (name : α → String) :
    (variants cases name).NeverNull := fun a h => by simp [variants] at h

theorem option_reads_null {α : Type} (c : Codec α) : c.option.Reads .null none := fun k hk => by
  simp only [Alike] at hk
  simp [hk, option, Doc.ofJson]

theorem option_reads {α : Type} {c : Codec α} {j : Json} {a : α} (h : c.Reads j a)
    (hnull : j ≠ .null) : c.option.Reads j (some a) := fun k hk => by
  have ha := h k hk
  have hk' : k ≠ .null := fun hnull' => hnull (eq_null_of_alike (hnull' ▸ hk))
  cases k <;> simp_all [option, Doc.ofJson, Except.map]

theorem option_lawful {α : Type} {c : Codec α} (hc : c.Lawful) (hnull : c.NeverNull) :
    c.option.Lawful
  | none => option_reads_null c
  | some a => option_reads (hc a) (hnull a)

/-- Reads items one by one. -/
private def decodeItems {α : Type} (c : Codec α) : List Doc → Except Fault (List α)
  | [] => .ok []
  | item :: items => do
      let a ← c.decode item
      let as ← decodeItems c items
      .ok (a :: as)

/-- Lists, written as arrays. -/
def list {α : Type} (c : Codec α) : Codec (List α) where
  encode as := .array (as.map c.encode)
  decode
    | .array items ending => do
        let as ← decodeItems c items
        orBroken ending.check
        .ok as
    | d => d.refuse "a sequence"

private theorem decodeItems_of_alike {α : Type} {c : Codec α} (hc : c.Lawful) :
    ∀ (as : List α) (ks : List Json), AlikeItems (as.map c.encode) ks →
      decodeItems c (Doc.ofItems ks) = .ok as
  | [], ks, hks => by
      simp only [List.map_nil, AlikeItems] at hks
      simp [hks, Doc.ofItems, decodeItems]
  | a :: as, ks, hks => by
      simp only [List.map_cons, AlikeItems] at hks
      obtain ⟨k, ks', rfl, hk, hks'⟩ := hks
      simp [Doc.ofItems, decodeItems, hc a k hk, decodeItems_of_alike hc as ks' hks', bind,
        Except.bind]

theorem list_lawful {α : Type} {c : Codec α} (hc : c.Lawful) : c.list.Lawful := fun as k hk => by
  simp only [list, Alike] at hk
  obtain ⟨items, rfl, hitems⟩ := hk
  simp [list, Doc.ofJson, decodeItems_of_alike hc as items hitems, Ending.check, orBroken, bind,
    Except.bind]

/-- Reads members one by one. -/
private def decodeMembers {α : Type} (c : Codec α) :
    List (Quoted × Doc) → Except Fault (List (String × α))
  | [] => .ok []
  | (key, under) :: members => do
      let key ← orBroken key.keep
      let a ← c.decode under
      let as ← decodeMembers c members
      .ok ((key, a) :: as)

/-- Dictionaries, written as objects; of several members under one key the last
one counts. -/
def dict {α : Type} (c : Codec α) : Codec (Dict α) where
  encode d := .object (d.entries.map fun e => (e.1, c.encode e.2))
  decode
    | .object members ending => do
        let entries ← decodeMembers c members
        orBroken ending.check
        .ok (.ofList entries)
    | .keyless _ => .error (.broken .malformed)
    | d => d.refuse "a map"

private theorem decodeMembers_ofMembers {α : Type} (c : Codec α) (members : List (String × Json)) :
    decodeMembers c (Doc.ofMembers members) =
      members.mapM fun m => (c.decode (Doc.ofJson m.2)).map fun a => (m.1, a) := by
  induction members with
  | nil => simp [Doc.ofMembers, decodeMembers, pure, Except.pure]
  | cons m members ih =>
    obtain ⟨key, j⟩ := m
    rw [List.mapM_cons, ← ih]
    simp only [Doc.ofMembers, decodeMembers, Quoted.keep, orBroken, bind, Except.bind, pure,
      Except.pure, Except.map]
    cases c.decode (Doc.ofJson j) <;> rfl

private theorem decodeMembers_of_alike {α : Type} {c : Codec α} (hc : c.Lawful) :
    ∀ (es : List (String × α)) (ks : List (String × Json)),
      AlikeMembers (es.map fun e => (e.1, c.encode e.2)) ks →
      decodeMembers c (Doc.ofMembers ks) = .ok es
  | [], ks, hks => by
      simp only [List.map_nil, AlikeMembers] at hks
      simp [hks, Doc.ofMembers, decodeMembers]
  | (key, a) :: es, ks, hks => by
      simp only [List.map_cons, AlikeMembers] at hks
      obtain ⟨k, ks', rfl, hk, hks'⟩ := hks
      simp [Doc.ofMembers, decodeMembers, Quoted.keep, orBroken, hc a k hk,
        decodeMembers_of_alike hc es ks' hks', bind, Except.bind]

theorem dict_lawful {α : Type} {c : Codec α} (hc : c.Lawful) : c.dict.Lawful := fun d k hk => by
  simp only [dict, Alike] at hk
  obtain ⟨members, ordered, rfl, hmembers, hordered⟩ := hk
  have hes := decodeMembers_of_alike hc d.entries members hmembers
  -- in another order the same entries are found, and make the same dictionary
  rw [decodeMembers_ofMembers] at hes
  obtain ⟨es, hperm, hes⟩ := mapM_of_perm hordered hes
  rw [← decodeMembers_ofMembers] at hes
  simp [dict, Doc.ofJson, hes, Ending.check, orBroken, Dict.ofList_of_perm hperm.symm, bind,
    Except.bind]

/-- A type that is another one under a new name. -/
def wrap {α β : Type} (c : Codec α) (toNew : α → β) (ofNew : β → α) : Codec β where
  encode b := c.encode (ofNew b)
  decode d := (c.decode d).map toNew

theorem wrap_lawful {α β : Type} {c : Codec α} {toNew : α → β} {ofNew : β → α}
    (hc : c.Lawful) (h : ∀ b, toNew (ofNew b) = b) :
    (c.wrap toNew ofNew).Lawful := fun b k hk => by
  simp [wrap, hc (ofNew b) k hk, Except.map, h]

/-! ## §4. Whole texts. -/

/-- Reads a text that holds one value and nothing else. -/
def ofText {α : Type} (c : Codec α) (s : String) : Except Fault α := do
  let (d, ending) := readText s
  let a ← c.decode d
  orBroken ending.check
  return a

end Codec

end CiPipeline.Json
