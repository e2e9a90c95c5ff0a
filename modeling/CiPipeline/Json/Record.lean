/-
  CiPipeline.Json.Record
  ──────────────────────
  **Records: types with named fields.**

  A record is written as an object with a member for each field.  It is read from
  an object, whose members may stand in any order and of which unknown ones are
  passed over, or from an array that holds the fields in the order in which they
  are declared.  A member that occurs twice is refused where it occurs again, one
  that is missing at the closing brace.

  Main statements: `decode_object_iff`, a record of fields with distinct names is read
  from an object exactly if each field on its own is read from the values under its name;
  `codec_reads`, so it is from members that stand for it, in whatever order they stand,
  and `codec_lawful`, if the fields are lawful it is read back from what it is written as.
-/
import CiPipeline.Json.Codec

namespace CiPipeline.Json

/-! ## §1. Fields. -/

/-- A field of a record: its name, its written form, the value it takes when an
object leaves it out and when an array ends before it, and the values that are
left out when the record is written. -/
structure Field (α : Type) where
  name : String
  codec : Codec α
  absent : Option α
  trailing : Option α
  hidden : α → Bool

namespace Field

/-- A field that must be there. -/
def required {α : Type} (name : String) (codec : Codec α) : Field α :=
  ⟨name, codec, none, none, fun _ => false⟩

/-- A field with a default. -/
def defaulted {α : Type} (name : String) (codec : Codec α) (default_ : α) : Field α :=
  ⟨name, codec, some default_, some default_, fun _ => false⟩

/-- A field that is absent when an object leaves it out; an array has to hold it. -/
def nullable {α : Type} (name : String) (codec : Codec α) : Field (Option α) :=
  ⟨name, codec.option, some none, none, fun _ => false⟩

/-- A field that is left out when it is absent. -/
def sparse {α : Type} (name : String) (codec : Codec α) : Field (Option α) :=
  ⟨name, codec.option, some none, some none, Option.isNone⟩

/-- The written form is lawful, and a value that is left out is the one that its
absence stands for. -/
structure Lawful {α : Type} (f : Field α) : Prop where
  codec : f.codec.Lawful
  hidden : ∀ a, f.hidden a = true → f.absent = some a

theorem required_lawful {α : Type} {name : String} {c : Codec α} (hc : c.Lawful) :
    (required name c).Lawful :=
  ⟨hc, fun _ h => by simp [required] at h⟩

theorem defaulted_lawful {α : Type} {name : String} {c : Codec α} {d : α} (hc : c.Lawful) :
    (defaulted name c d).Lawful :=
  ⟨hc, fun _ h => by simp [defaulted] at h⟩

theorem nullable_lawful {α : Type} {name : String} {c : Codec α} (hc : c.Lawful)
    (hnull : c.NeverNull) : (nullable name c).Lawful :=
  ⟨Codec.option_lawful hc hnull, fun _ h => by simp [nullable] at h⟩

theorem sparse_lawful {α : Type} {name : String} {c : Codec α} (hc : c.Lawful)
    (hnull : c.NeverNull) : (sparse name c).Lawful :=
  ⟨Codec.option_lawful hc hnull, fun a h => by cases a <;> simp_all [sparse]⟩

end Field

/-! ## §2. Records. -/

/-- The fields of a record in the order in which they are declared.  The first
index is the type of their values; the second one holds for each field the value
that has been read, if it has. -/
inductive Record : Type → Type → Type 1 where
  | nil : Record Unit Unit
  | cons {α β σ : Type} (field : Field α) (rest : Record β σ) : Record (α × β) (Option α × σ)

namespace Record

/-- The number of fields. -/
def size : {τ σ : Type} → Record τ σ → Nat
  | _, _, .nil => 0
  | _, _, .cons _ rest => rest.size + 1

/-- The names of the fields. -/
def names : {τ σ : Type} → Record τ σ → List String
  | _, _, .nil => []
  | _, _, .cons field rest => field.name :: rest.names

/-- The members that a record is written as. -/
def members : {τ σ : Type} → Record τ σ → τ → List (String × Json)
  | _, _, .nil, _ => []
  | _, _, .cons field rest, (a, b) =>
      if field.hidden a then rest.members b
      else (field.name, field.codec.encode a) :: rest.members b

/-! ## §3. Reading from an object. -/

/-- No field has been read. -/
def unread : {τ σ : Type} → Record τ σ → σ
  | _, _, .nil => ()
  | _, _, .cons _ rest => (none, rest.unread)

/-- Reads a member into the field of its name; nothing if there is no such field. -/
def put : {τ σ : Type} → Record τ σ → σ → String → Doc → Option (Except Fault σ)
  | _, _, .nil, _, _, _ => none
  | _, _, .cons field rest, (slot, slots), key, d =>
      if field.name = key then
        some <|
          match slot with
          | some _ => .error (.mismatch (.duplicateField key))
          | none => (field.codec.decode d).map fun a => (some a, slots)
      else (rest.put slots key d).map fun r => r.map fun slots => (slot, slots)

/-- Reads the members of an object, from the first to the last. -/
def putAll {τ σ : Type} (r : Record τ σ) (slots : σ) :
    List (Quoted × Doc) → Except Fault σ
  | [] => .ok slots
  | (key, d) :: members => do
      let key ← orBroken key.keep
      match r.put slots key d with
      | some read =>
          let slots ← read
          r.putAll slots members
      | none =>
          orBroken d.skip
          r.putAll slots members

/-- The record of the fields that have been read; the first one that is missing
and must not be is reported. -/
def collect : {τ σ : Type} → Record τ σ → σ → Except Fault τ
  | _, _, .nil, _ => .ok ()
  | _, _, .cons field rest, (slot, slots) =>
      match slot.or field.absent with
      | some a => (rest.collect slots).map fun b => (a, b)
      | none => .error (.mismatch (.missingField field.name))

/-- Reads a record from the members of an object. -/
def ofMembers {τ σ : Type} (r : Record τ σ) (members : List (Quoted × Doc)) (ending : Ending) :
    Except Fault τ := do
  let slots ← r.putAll r.unread members
  orBroken ending.check
  r.collect slots

/-! ## §4. Reading from an array. -/

/-- Reads fields from items; `index` fields stand before them, and `expected` says
what is read. -/
def ofItems : {τ σ : Type} → Record τ σ → (expected : String) → (index : Nat) → List Doc →
    Ending → Except Fault τ
  | _, _, .nil, _, _, [], ending => orBroken ending.check
  | _, _, .nil, _, _, _ :: _, _ => .error (.broken .malformed)
  | _, _, .cons field rest, expected, index, item :: items, ending => do
      let a ← field.codec.decode item
      let b ← rest.ofItems expected (index + 1) items ending
      .ok (a, b)
  | _, _, .cons field rest, expected, index, [], ending => do
      orBroken ending.check
      match field.trailing with
      | some a => (rest.ofItems expected (index + 1) [] ending).map fun b => (a, b)
      | none => .error (.mismatch (.invalidLength index expected))

/-! ## §5. The written form. -/

/-- What a record reads as in a message. -/
def expected {τ σ : Type} (r : Record τ σ) (name : String) : String :=
  s!"struct {name} with {r.size} element" ++ (if r.size = 1 then "" else "s")

/-- The written form of a record with a name. -/
def codec {τ σ γ : Type} (r : Record τ σ) (name : String) (pack : τ → γ)
    (unpack : γ → τ) : Codec γ where
  encode c := .object (r.members (unpack c))
  decode
    | .object members ending => (r.ofMembers members ending).map pack
    | .array items ending => (r.ofItems (r.expected name) 0 items ending).map pack
    | .keyless _ => .error (.broken .malformed)
    | d => d.refuse s!"struct {name}"

end Record

/-! ## §6. Values under a name. -/

/-- The values of the members of a name, from the first to the last. -/
def valuesUnder (name : String) (members : List (String × Json)) : List Json :=
  (members.filter fun m => m.1 = name).map (·.2)

/-- The members of other names. -/
def membersBut (name : String) (members : List (String × Json)) : List (String × Json) :=
  members.filter fun m => m.1 ≠ name

section
variable {name key : String} {j : Json} {members : List (String × Json)}

@[simp] theorem valuesUnder_nil : valuesUnder name [] = [] := rfl

@[simp] theorem membersBut_nil : membersBut name [] = [] := rfl

theorem valuesUnder_cons_self :
    valuesUnder name ((name, j) :: members) = j :: valuesUnder name members := by
  simp [valuesUnder]

theorem membersBut_cons_self :
    membersBut name ((name, j) :: members) = membersBut name members := by
  simp [membersBut]

theorem valuesUnder_cons_of_ne (h : key ≠ name) :
    valuesUnder name ((key, j) :: members) = valuesUnder name members := by
  simp [valuesUnder, h]

theorem membersBut_cons_of_ne (h : key ≠ name) :
    membersBut name ((key, j) :: members) = (key, j) :: membersBut name members := by
  simp [membersBut, h]

/-- No member has the name. -/
theorem valuesUnder_eq_nil (h : ∀ m ∈ members, m.1 ≠ name) : valuesUnder name members = [] := by
  simpa [valuesUnder] using h

theorem membersBut_eq_self (h : ∀ m ∈ members, m.1 ≠ name) : membersBut name members = members := by
  simpa [membersBut] using h

theorem valuesUnder_perm (name : String) {members' : List (String × Json)}
    (h : members.Perm members') : (valuesUnder name members).Perm (valuesUnder name members') :=
  (h.filter _).map _

theorem membersBut_perm (name : String) {members' : List (String × Json)}
    (h : members.Perm members') : (membersBut name members).Perm (membersBut name members') :=
  h.filter _

theorem mem_valuesUnder_iff : j ∈ valuesUnder name members ↔ (name, j) ∈ members := by
  simp [valuesUnder]

theorem valuesUnder_membersBut (h : name ≠ key) :
    valuesUnder name (membersBut key members) = valuesUnder name members := by
  unfold valuesUnder membersBut
  rw [List.filter_filter]
  congr 1
  refine List.filter_congr fun m _ => ?_
  by_cases hm : m.1 = name
  · simp [hm, h]
  · simp [hm]

end

/-! ## §7. What a field is read from. -/

namespace Field

variable {α : Type} {f : Field α} {j : Json} {js : List Json} {a : α} {slot slot' : Option α}

/-- What a field holds after some values under its name: it takes one value at most, and none
if it holds one already. -/
inductive Fills (f : Field α) : Option α → List Json → Option α → Prop where
  | nothing {slot : Option α} : Fills f slot [] slot
  | only {j : Json} {a : α} (h : f.codec.decode (Doc.ofJson j) = .ok a) : Fills f none [j] (some a)

/-- What a field is read as: from the only value under its name, or as what the absence of a
value stands for. -/
inductive ReadFrom (f : Field α) : List Json → α → Prop where
  | absent {a : α} (h : f.absent = some a) : ReadFrom f [] a
  | only {j : Json} {a : α} (h : f.codec.decode (Doc.ofJson j) = .ok a) : ReadFrom f [j] a

theorem not_fills_some : ¬f.Fills (some a) (j :: js) slot' := by
  intro h
  cases h

theorem not_fills_of_error {e : Fault} (hj : f.codec.decode (Doc.ofJson j) = .error e) :
    ¬f.Fills none (j :: js) slot' := by
  intro h
  cases h with
  | only h => simp [hj] at h

theorem fills_cons_iff (hj : f.codec.decode (Doc.ofJson j) = .ok a) :
    f.Fills none (j :: js) slot' ↔ f.Fills (some a) js slot' := by
  constructor
  · intro h
    cases h with
    | only h =>
        rw [hj, Except.ok.injEq] at h
        rw [h]
        exact .nothing
  · intro h
    cases h with
    | nothing => exact .only hj

theorem exists_fills_iff :
    (∃ slot, f.Fills none js slot ∧ slot.or f.absent = some a) ↔ f.ReadFrom js a := by
  constructor
  · rintro ⟨slot, hfills, ha⟩
    cases hfills with
    | nothing => exact .absent ha
    | only h =>
        rw [Option.some_or, Option.some_inj] at ha
        exact .only (ha ▸ h)
  · intro h
    cases h with
    | absent h => exact ⟨none, .nothing, h⟩
    | only h => exact ⟨some a, .only h, rfl⟩

end Field

/-! ## §8. What a record is read from. -/

namespace Record

/-- What a record is read as: every field from the values under its name. -/
def ReadFrom : {τ σ : Type} → Record τ σ → List (String × Json) → τ → Prop
  | _, _, .nil, _, _ => True
  | _, _, .cons field rest, members, (a, b) =>
      field.ReadFrom (valuesUnder field.name members) a ∧ rest.ReadFrom members b

/-- The members of a name that no field has make no difference. -/
theorem readFrom_membersBut {name : String} : ∀ {τ σ : Type} {r : Record τ σ}
    {members : List (String × Json)} {t : τ}, name ∉ r.names →
      (r.ReadFrom (membersBut name members) t ↔ r.ReadFrom members t) := by
  intro τ σ r
  induction r with
  | nil => exact fun _ => .rfl
  | cons field rest ih =>
      intro members t hname
      obtain ⟨a, b⟩ := t
      rw [names, List.mem_cons, not_or] at hname
      rw [ReadFrom, ReadFrom, valuesUnder_membersBut (Ne.symm hname.1), ih hname.2]

theorem putAll_nil (members : List (String × Json)) :
    Record.nil.putAll () (Doc.ofMembers members) = .ok () := by
  induction members with
  | nil => rfl
  | cons m members ih =>
      obtain ⟨key, j⟩ := m
      simp [Doc.ofMembers, putAll, Quoted.keep, orBroken, put, Doc.skip_ofJson, ih, bind,
        Except.bind]

/-- The first field takes the values under its name, and the other fields the other members. -/
theorem putAll_cons_iff {α β σ : Type} {field : Field α} {rest : Record β σ}
    {members : List (String × Json)} {slot' : Option α} {slots' : σ} :
    ∀ {slot : Option α} {slots : σ},
      (Record.cons field rest).putAll (slot, slots) (Doc.ofMembers members) =
          .ok (slot', slots') ↔
        field.Fills slot (valuesUnder field.name members) slot' ∧
          rest.putAll slots (Doc.ofMembers (membersBut field.name members)) = .ok slots' := by
  induction members with
  | nil =>
      intro slot slots
      rw [valuesUnder_nil, membersBut_nil, Doc.ofMembers, putAll, putAll, Except.ok.injEq,
        Except.ok.injEq, Prod.mk.injEq]
      refine and_congr_left fun _ => ?_
      constructor
      · rintro rfl
        exact .nothing
      · rintro ⟨⟩
        rfl
  | cons m members ih =>
      intro slot slots
      obtain ⟨key, j⟩ := m
      by_cases hkey : field.name = key
      · subst hkey
        rw [valuesUnder_cons_self, membersBut_cons_self]
        simp only [Doc.ofMembers, putAll, Quoted.keep, orBroken, bind, Except.bind, put, if_true]
        cases slot with
        | some a => simp [Field.not_fills_some]
        | none =>
            cases hj : field.codec.decode (Doc.ofJson j) with
            | error e => simp [Except.map, Field.not_fills_of_error hj]
            | ok a =>
                rw [Field.fills_cons_iff hj]
                exact ih
      · rw [valuesUnder_cons_of_ne (Ne.symm hkey), membersBut_cons_of_ne (Ne.symm hkey)]
        simp only [Doc.ofMembers, putAll, Quoted.keep, orBroken, bind, Except.bind, put, hkey,
          if_false, Doc.skip_ofJson]
        cases rest.put slots key (Doc.ofJson j) with
        | none => exact ih
        | some read =>
            cases read with
            | error e => simp [Except.map]
            | ok slots => exact ih

theorem collect_cons_iff {α β σ : Type} {field : Field α} {rest : Record β σ} {slot : Option α}
    {slots : σ} {a : α} {b : β} :
    (Record.cons field rest).collect (slot, slots) = .ok (a, b) ↔
      slot.or field.absent = some a ∧ rest.collect slots = .ok b := by
  rw [collect]
  cases slot.or field.absent with
  | none => simp
  | some a => cases rest.collect slots <;> simp [Except.map]

/-- The induction goes over the fields; what the first one takes, the others do not see. -/
theorem exists_putAll_iff : ∀ {τ σ : Type} {r : Record τ σ} {members : List (String × Json)}
    {t : τ}, r.names.Nodup →
      ((∃ slots, r.putAll r.unread (Doc.ofMembers members) = .ok slots ∧
        r.collect slots = .ok t) ↔ r.ReadFrom members t) := by
  intro τ σ r
  induction r with
  | nil =>
      intro members t _
      exact iff_of_true ⟨(), putAll_nil members, rfl⟩ trivial
  | cons field rest ih =>
      intro members t hnames
      obtain ⟨a, b⟩ := t
      rw [names, List.nodup_cons] at hnames
      rw [ReadFrom, ← readFrom_membersBut hnames.1, ← ih hnames.2, ← Field.exists_fills_iff]
      constructor
      · rintro ⟨⟨slot, slots⟩, hput, hcollect⟩
        obtain ⟨hfills, hput⟩ := putAll_cons_iff.mp hput
        obtain ⟨ha, hb⟩ := collect_cons_iff.mp hcollect
        exact ⟨⟨slot, hfills, ha⟩, slots, hput, hb⟩
      · rintro ⟨⟨slot, hfills, ha⟩, slots, hput, hb⟩
        exact ⟨(slot, slots), putAll_cons_iff.mpr ⟨hfills, hput⟩, collect_cons_iff.mpr ⟨ha, hb⟩⟩

/-- **A record is read from an object exactly if each of its fields is read from the values under
its name**, whatever the order of the members and whatever stands under other names. -/
theorem decode_object_iff {τ σ γ : Type} {r : Record τ σ} {name : String} {pack : τ → γ}
    {unpack : γ → τ} (hnames : r.names.Nodup) {members : List (String × Json)} {c : γ} :
    (r.codec name pack unpack).decode (Doc.ofJson (.object members)) = .ok c ↔
      ∃ t, r.ReadFrom members t ∧ pack t = c := by
  have hread : ∀ t, r.ofMembers (Doc.ofMembers members) .closed = .ok t ↔
      r.ReadFrom members t := by
    intro t
    rw [← exists_putAll_iff hnames, ofMembers]
    cases r.putAll r.unread (Doc.ofMembers members) with
    | error e => simp [bind, Except.bind]
    | ok slots => simp [bind, Except.bind, Ending.check, orBroken]
  simp only [← hread, Doc.ofJson, codec]
  cases r.ofMembers (Doc.ofMembers members) .closed <;> simp [Except.map]

/-! ## §9. Records are read back. -/

/-- Members that stand for a record: every field is read from its value, or left out where its
absence stands for it. -/
def WrittenAs : {τ σ : Type} → Record τ σ → τ → List (String × Json) → Prop
  | _, _, .nil, _, ms => ms = []
  | _, _, .cons field rest, (a, b), ms =>
      (field.absent = some a ∧ rest.WrittenAs b ms) ∨
        ∃ j ms', ms = (field.name, j) :: ms' ∧ field.codec.Reads j a ∧ rest.WrittenAs b ms'

/-- All fields are lawful. -/
def AllLawful : {τ σ : Type} → Record τ σ → Prop
  | _, _, .nil => True
  | _, _, .cons field rest => field.Lawful ∧ rest.AllLawful

/-- The members that a record is written as stand for it. -/
theorem writtenAs_members : ∀ {τ σ : Type} (r : Record τ σ), r.AllLawful → ∀ t : τ,
    r.WrittenAs t (r.members t) := by
  intro τ σ r
  induction r with
  | nil => exact fun _ _ => rfl
  | cons field rest ih =>
    intro hlawful t
    obtain ⟨a, b⟩ := t
    have hrest := ih hlawful.2 b
    simp only [members, WrittenAs]
    split
    case isTrue hhidden => exact .inl ⟨hlawful.1.hidden a hhidden, hrest⟩
    case isFalse => exact .inr ⟨_, _, rfl, hlawful.1.codec a, hrest⟩

/-- Members that stand for a record have the names of its fields. -/
theorem mem_names_of_writtenAs : ∀ {τ σ : Type} (r : Record τ σ) (t : τ)
    (ms : List (String × Json)), r.WrittenAs t ms → ∀ m ∈ ms, m.1 ∈ r.names := by
  intro τ σ r
  induction r with
  | nil =>
    intro t ms hms m hm
    rw [WrittenAs] at hms
    simp [hms] at hm
  | cons field rest ih =>
    intro t ms hms m hm
    obtain ⟨a, b⟩ := t
    simp only [names, List.mem_cons]
    rcases hms with ⟨-, hrest⟩ | ⟨j, ms', rfl, -, hrest⟩
    · exact .inr (ih b ms hrest m hm)
    · rcases List.mem_cons.mp hm with rfl | hm
      · exact .inl rfl
      · exact .inr (ih b ms' hrest m hm)

/-- Alike members have the same names. -/
theorem mem_names_of_alike {names : List String} : ∀ {ms ks : List (String × Json)},
    AlikeMembers ms ks → (∀ m ∈ ms, m.1 ∈ names) → ∀ m ∈ ks, m.1 ∈ names
  | [], ks, hks, _, m, hm => by
      rw [AlikeMembers] at hks
      simp [hks] at hm
  | (key, j) :: ms, ks, hks, hms, m, hm => by
      rw [AlikeMembers] at hks
      obtain ⟨k, ks', rfl, -, hks'⟩ := hks
      rcases List.mem_cons.mp hm with rfl | hm
      · exact hms (key, j) List.mem_cons_self
      · exact mem_names_of_alike hks' (fun m hm => hms m (List.mem_cons_of_mem _ hm)) m hm

/-- What stands for a record, in whatever order, has for each field a value that it reads, or
nothing where its absence stands for the value. -/
theorem readFrom_of_writtenAs : ∀ {τ σ : Type} {r : Record τ σ}, r.names.Nodup →
    ∀ {t : τ} {ms ks ordered : List (String × Json)}, r.WrittenAs t ms → AlikeMembers ms ks →
      ks.Perm ordered → r.ReadFrom ordered t := by
  intro τ σ r
  induction r with
  | nil => exact fun _ _ _ _ _ _ _ _ => trivial
  | cons field rest ih =>
    intro hnames t ms ks ordered hms hks hordered
    obtain ⟨a, b⟩ := t
    rw [names, List.nodup_cons] at hnames
    -- what stands for the later fields is not named like the first one
    have hother : ∀ {ms' ks' : List (String × Json)}, rest.WrittenAs b ms' →
        AlikeMembers ms' ks' → ∀ m ∈ ks', m.1 ≠ field.name := by
      intro ms' ks' hms' hks' m hm heq
      have hmem := mem_names_of_alike hks' (mem_names_of_writtenAs rest b ms' hms') m hm
      exact hnames.1 (heq ▸ hmem)
    rcases hms with ⟨habsent, hrest⟩ | ⟨j, ms', rfl, hj, hrest⟩
    · have hnone : valuesUnder field.name ordered = [] :=
        valuesUnder_eq_nil fun m hm => hother hrest hks m (hordered.mem_iff.mpr hm)
      refine ⟨?_, ih hnames.2 hrest hks hordered⟩
      rw [hnone]
      exact .absent habsent
    · rw [AlikeMembers] at hks
      obtain ⟨k, ks', rfl, hk, hks'⟩ := hks
      have hapart := hother hrest hks'
      have hvalues := valuesUnder_perm field.name hordered
      rw [valuesUnder_cons_self, valuesUnder_eq_nil hapart] at hvalues
      have hmembers := membersBut_perm field.name hordered
      rw [membersBut_cons_self, membersBut_eq_self hapart] at hmembers
      rw [ReadFrom, List.perm_singleton.mp hvalues.symm, ← readFrom_membersBut hnames.1]
      exact ⟨.only (hj k hk), ih hnames.2 hrest hks' hmembers⟩

/-- **A record is read from an object whose members stand for it.** -/
theorem codec_reads {τ σ γ : Type} {r : Record τ σ} {name : String} {pack : τ → γ}
    {unpack : γ → τ} (hnames : r.names.Nodup) {t : τ} {ms : List (String × Json)}
    (hms : r.WrittenAs t ms) : (r.codec name pack unpack).Reads (.object ms) (pack t) := by
  intro k hk
  rw [Alike] at hk
  obtain ⟨ks, ordered, rfl, hks, hordered⟩ := hk
  exact (decode_object_iff hnames).mpr ⟨t, readFrom_of_writtenAs hnames hms hks hordered, rfl⟩

/-- **A record is read back from what it is written as.** -/
theorem codec_lawful {τ σ γ : Type} {r : Record τ σ} {name : String} {pack : τ → γ}
    {unpack : γ → τ} (hr : r.AllLawful) (hnames : r.names.Nodup)
    (hpack : ∀ c, pack (unpack c) = c) : (r.codec name pack unpack).Lawful := by
  intro c
  have hreads : (r.codec name pack unpack).Reads (.object (r.members (unpack c)))
      (pack (unpack c)) := codec_reads hnames (writtenAs_members r hr (unpack c))
  rw [hpack] at hreads
  exact hreads

end Record

end CiPipeline.Json
