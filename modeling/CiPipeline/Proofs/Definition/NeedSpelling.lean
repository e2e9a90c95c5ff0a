/-
  CiPipeline.Proofs.Definition.NeedSpelling
  ─────────────────────────────────────────
  **What is read as a need, and as which one.**

  A need is spelled as the name of its job, or as an object that has the name and may say
  whether artifacts are fetched and whether the need is optional (`Need.Spelled`).  Of
  everything else it is said that no spelling fits, whatever is wrong with it inside.
  Main statement: `Need.decode_spelled`.
-/
import CiPipeline.Definition.Written

namespace CiPipeline

open Json (Codec Doc Fault Field Record valuesUnder)

/-! ## §1. Spellings. -/

/-- The values of a member that may be left out and is a truth value otherwise. -/
inductive SwitchMember (default_ : Bool) : List Json → Bool → Prop where
  | absent : SwitchMember default_ [] default_
  | given (b : Bool) : SwitchMember default_ [.bool b] b

theorem SwitchMember.iff_readFrom {name : String} {default_ b : Bool} {js : List Json} :
    (Field.defaulted name .bool default_).ReadFrom js b ↔ SwitchMember default_ js b := by
  constructor
  · intro h
    cases h with
    | absent h =>
        obtain rfl : default_ = b := Option.some.inj h
        exact .absent
    | only h =>
        rw [Codec.decode_bool_iff.mp h]
        exact .given b
  · intro h
    cases h with
    | absent => exact .absent rfl
    | given => exact .only (Codec.decode_bool_iff.mpr rfl)

/-- A member that may be left out is not null. -/
theorem SwitchMember.not_null {default_ b : Bool} {js : List Json}
    (h : SwitchMember default_ js b) : .null ∉ js := by
  cases h <;> simp

namespace Need

/-- The spellings of a need.  Of the members of an object only those of the three names
matter, and each of them occurs once at most. -/
inductive Spelled : Json → Need → Prop where
  | name (job : String) : Spelled (.string job) ⟨job, true, false⟩
  | full {members : List (String × Json)} {n : Need}
      (hjob : valuesUnder "job" members = [.string n.job])
      (hartifacts : SwitchMember true (valuesUnder "artifacts" members) n.artifacts)
      (hoptional : SwitchMember false (valuesUnder "optional" members) n.optional) :
      Spelled (.object members) n

/-- Null does not stand for a member that is left out. -/
theorem Spelled.not_null {members : List (String × Json)} {n : Need}
    (h : Spelled (.object members) n) {key : String} (hkey : key ∈ record.names) :
    (key, .null) ∉ members := by
  cases h with
  | full hjob hartifacts hoptional =>
      rw [← Json.mem_valuesUnder_iff]
      have hnames : key = "job" ∨ key = "artifacts" ∨ key = "optional" := by
        simpa [record, Record.names, Field.required, Field.defaulted] using hkey
      rcases hnames with rfl | rfl | rfl
      · rw [hjob]
        simp
      · exact hartifacts.not_null
      · exact hoptional.not_null

/-! ## §2. Reading. -/

/-- An object is read as a need that is written out if it spells one. -/
theorem fullCodec_decode_iff {members : List (String × Json)} {n : Need} :
    fullCodec.decode (Doc.ofJson (.object members)) = .ok n ↔ Spelled (.object members) n := by
  have hjob : ∀ job, (Field.required "job" .string).ReadFrom (valuesUnder "job" members) job ↔
      valuesUnder "job" members = [.string job] := by
    intro job
    generalize valuesUnder "job" members = js
    constructor
    · intro h
      cases h with
      | absent h => simp [Field.required] at h
      | only h => rw [Codec.decode_string_iff.mp h]
    · rintro rfl
      exact .only (Codec.decode_string_iff.mpr rfl)
  rw [fullCodec, Record.decode_object_iff (by decide)]
  constructor
  · rintro ⟨⟨job, artifacts, optional_, ⟨⟩⟩, ⟨h1, h2, h3, -⟩, rfl⟩
    exact .full ((hjob job).mp h1) (SwitchMember.iff_readFrom.mp h2)
      (SwitchMember.iff_readFrom.mp h3)
  · intro h
    cases h with
    | full h1 h2 h3 =>
        exact ⟨(n.job, n.artifacts, n.optional, ()), ⟨(hjob n.job).mpr h1,
          SwitchMember.iff_readFrom.mpr h2, SwitchMember.iff_readFrom.mpr h3, trivial⟩, rfl⟩

/-- The first reading of a value without flaws never stands in the way of the second one. -/
theorem decode_ofJson (j : Json) : codec.decode (Doc.ofJson j) =
    match j with
    | .string job => .ok (Need.of job)
    | .object members =>
        match fullCodec.decode (Doc.ofJson (.object members)) with
        | .ok n => .ok n
        | .error _ => .error refusal
    | _ => .error refusal := by
  obtain ⟨v, hv⟩ := Doc.exists_value j
  show Need.decode (Doc.ofJson j) = _
  unfold Need.decode
  rw [hv]
  cases j <;> rfl

theorem decode_iff {j : Json} {n : Need} :
    codec.decode (Doc.ofJson j) = .ok n ↔ Spelled j n := by
  rw [decode_ofJson]
  cases j with
  | string job =>
      show Except.ok (Need.of job) = .ok n ↔ _
      rw [Except.ok.injEq]
      constructor
      · rintro rfl
        exact .name job
      · rintro ⟨⟩
        rfl
  | object members =>
      rw [← fullCodec_decode_iff]
      dsimp only
      cases fullCodec.decode (Doc.ofJson (.object members)) <;> simp
  | _ => exact iff_of_false nofun nofun

/-- There is one way for a value without flaws to be refused. -/
theorem decode_error {j : Json} {e : Fault} (h : codec.decode (Doc.ofJson j) = .error e) :
    e = refusal := by
  rw [decode_ofJson] at h
  split at h
  case h_1 => simp at h
  case h_2 =>
    split at h
    case h_1 => simp at h
    case h_2 => exact (Except.error.inj h).symm
  case h_3 => exact (Except.error.inj h).symm

/-- **A value is read as a need exactly if it spells it.**  Of every other value it is said that
no spelling fits; so it is of an object with null under one of the names. -/
theorem decode_spelled (j : Json) :
    (∀ n, codec.decode (Doc.ofJson j) = .ok n ↔ Spelled j n) ∧
    ((∀ n, ¬Spelled j n) → ∃ m, codec.decode (Doc.ofJson j) = .error (.mismatch m) ∧
      m.message = "data did not match any variant of untagged enum NeedRepr") ∧
    (∀ members, j = .object members → ∀ key ∈ record.names, (key, .null) ∈ members →
      ∀ n, ¬Spelled j n) := by
  refine ⟨fun n => decode_iff, ?_, ?_⟩
  · intro hnone
    cases hdecode : codec.decode (Doc.ofJson j) with
    | ok n => exact absurd (decode_iff.mp hdecode) (hnone n)
    | error e => exact ⟨.noSpelling "NeedRepr", by rw [decode_error hdecode, refusal], rfl⟩
  · rintro members rfl key hkey hnull n h
    exact h.not_null hkey hnull

end Need

end CiPipeline
