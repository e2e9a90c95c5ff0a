/-
  CiPipeline.Definition.Written
  ─────────────────────────────
  **The written form of a definition.**

  All types of a definition are written as records; a need may also be read from
  the mere name of the job.  Every type is read back from what it is written as.
-/
import CiPipeline.Definition.Basic
import CiPipeline.Json.Record

namespace CiPipeline

open Json (Codec Doc Fault Field Record)

/-! ## §1. Times to run and rules. -/

/-- Times to run by their names. -/
def When.cases : List (String × When) :=
  [("on_success", .onSuccess), ("on_failure", .onFailure), ("always", .always),
   ("manual", .manual), ("never", .never)]

/-- The written form of a time to run. -/
def When.codec : Codec When := .variants When.cases When.name

theorem When.codec_lawful : When.codec.Lawful :=
  Codec.variants_lawful fun w => by cases w <;> rfl

/-- The fields of a rule; the absent ones are not written. -/
def Rule.record :=
  Record.cons (.sparse "if_ref" .string) <|
  .cons (.sparse "when" When.codec) <|
  .nil

/-- The written form of a rule. -/
def Rule.codec : Codec Rule :=
  Rule.record.codec "Rule" (fun (ifRef, when_, _) => ⟨ifRef, when_⟩)
    (fun r => (r.ifRef, r.when, ()))

theorem Rule.codec_lawful : Rule.codec.Lawful :=
  Record.codec_lawful
    ⟨Field.sparse_lawful Codec.string_lawful Codec.string_neverNull,
     Field.sparse_lawful When.codec_lawful (Codec.variants_neverNull _ _), trivial⟩
    (by decide) fun _ => rfl

/-! ## §2. Needs. -/

/-- The fields of a need that is written out. -/
def Need.record :=
  Record.cons (.required "job" .string) <|
  .cons (.defaulted "artifacts" .bool true) <|
  .cons (.defaulted "optional" .bool false) <|
  .nil

/-- A need that is written out. -/
def Need.fullCodec : Codec Need :=
  Need.record.codec "Need" (fun (job, artifacts, optional_, _) => ⟨job, artifacts, optional_⟩)
    (fun n => (n.job, n.artifacts, n.optional, ()))

theorem Need.fullCodec_lawful : Need.fullCodec.Lawful :=
  Record.codec_lawful
    ⟨Field.required_lawful Codec.string_lawful, Field.defaulted_lawful Codec.bool_lawful,
     Field.defaulted_lawful Codec.bool_lawful, trivial⟩
    (by decide) fun _ => rfl

/-- The refusal of a value that is no need in either spelling. -/
def Need.refusal : Fault := .mismatch (.noSpelling "NeedRepr")

/-- Reads a need in one of its two spellings.  The value is taken in as a whole
first, so it has to be sound JSON; after that every mismatch is the same one. -/
def Need.decode (d : Doc) : Except Fault Need := do
  let _ ← Json.orBroken d.value
  match d with
  | .text (.plain job) => .ok (Need.of job)
  | .object _ _ =>
      match Need.fullCodec.decode d with
      | .ok n => .ok n
      | .error _ => .error Need.refusal
  | _ => .error Need.refusal

/-- The written form of a need: it is written out, and read in either spelling. -/
def Need.codec : Codec Need where
  encode := Need.fullCodec.encode
  decode := Need.decode

/-- A need is read from the mere name of the job. -/
theorem Need.codec_reads_name (job : String) : Need.codec.Reads (.string job) (.of job) := by
  intro k hk
  rw [Json.Alike] at hk
  rw [hk]
  rfl

/-- An object is read as a need if its members are. -/
theorem Need.codec_reads_object {members : List (String × Json)} {n : Need}
    (h : Need.fullCodec.Reads (.object members) n) : Need.codec.Reads (.object members) n := by
  intro k hk
  have hfull := h k hk
  rw [Json.Alike] at hk
  obtain ⟨_, ordered, rfl, -, -⟩ := hk
  obtain ⟨v, hv⟩ := Doc.exists_value (.object ordered)
  show Need.decode (Doc.ofJson (.object ordered)) = .ok n
  unfold Need.decode
  rw [hv]
  rw [Doc.ofJson] at hfull ⊢
  simp only [Json.orBroken, bind, Except.bind, hfull]

theorem Need.codec_lawful : Need.codec.Lawful := fun n =>
  Need.codec_reads_object (Need.fullCodec_lawful n)

/-! ## §3. Jobs, stages and definitions. -/

/-- The fields of a job. -/
def JobDefinition.record :=
  Record.cons (.required "name" .string) <|
  .cons (.defaulted "script" Codec.string.list []) <|
  .cons (.defaulted "needs" Need.codec.list []) <|
  .cons (.defaulted "rules" Rule.codec.list []) <|
  .cons (.defaulted "when" When.codec .onSuccess) <|
  .cons (.defaulted "allow_failure" .bool false) <|
  .cons (.defaulted "options" Codec.value.dict .empty) <|
  .nil

/-- The written form of a job. -/
def JobDefinition.codec : Codec JobDefinition :=
  JobDefinition.record.codec "JobAttributes"
    (fun (name, script, needs, rules, when_, allowFailure, options, _) =>
      ⟨name, script, needs, rules, when_, allowFailure, options⟩)
    (fun j => (j.name, j.script, j.needs, j.rules, j.when, j.allowFailure, j.options, ()))

theorem JobDefinition.codec_lawful : JobDefinition.codec.Lawful :=
  Record.codec_lawful
    ⟨Field.required_lawful Codec.string_lawful,
     Field.defaulted_lawful (Codec.list_lawful Codec.string_lawful),
     Field.defaulted_lawful (Codec.list_lawful Need.codec_lawful),
     Field.defaulted_lawful (Codec.list_lawful Rule.codec_lawful),
     Field.defaulted_lawful When.codec_lawful, Field.defaulted_lawful Codec.bool_lawful,
     Field.defaulted_lawful (Codec.dict_lawful Codec.value_lawful), trivial⟩
    (by decide) fun _ => rfl

/-- The fields of a stage. -/
def StageDefinition.record :=
  Record.cons (.required "name" .string) <|
  .cons (.sparse "index" .uint64) <|
  .cons (.defaulted "builds" JobDefinition.codec.list []) <|
  .nil

/-- The written form of a stage. -/
def StageDefinition.codec : Codec StageDefinition :=
  StageDefinition.record.codec "StageAttributes" (fun (name, index, jobs, _) => ⟨name, index, jobs⟩)
    (fun s => (s.name, s.index, s.jobs, ()))

theorem StageDefinition.codec_lawful : StageDefinition.codec.Lawful :=
  Record.codec_lawful
    ⟨Field.required_lawful Codec.string_lawful,
     Field.sparse_lawful Codec.uint64_lawful Codec.uint64_neverNull,
     Field.defaulted_lawful (Codec.list_lawful JobDefinition.codec_lawful), trivial⟩
    (by decide) fun _ => rfl

/-- The fields of a definition. -/
def Definition.record :=
  Record.cons (.defaulted "stages_attributes" StageDefinition.codec.list []) <|
  .cons (.defaulted "workflow_rules" Rule.codec.list []) <|
  .nil

/-- The written form of a definition. -/
def Definition.codec : Codec Definition :=
  Definition.record.codec "ProcessorResult" (fun (stages, rules, _) => ⟨stages, rules⟩)
    (fun d => (d.stages, d.workflowRules, ()))

theorem Definition.codec_lawful : Definition.codec.Lawful :=
  Record.codec_lawful
    ⟨Field.defaulted_lawful (Codec.list_lawful StageDefinition.codec_lawful),
     Field.defaulted_lawful (Codec.list_lawful Rule.codec_lawful), trivial⟩
    (by decide) fun _ => rfl

end CiPipeline
