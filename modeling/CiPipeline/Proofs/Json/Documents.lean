/-
  CiPipeline.Proofs.Json.Documents
  ────────────────────────────────
  **Documents are read back from what they are written as.**

  Four types are exchanged as whole documents: definitions, settings, the stages of a graph
  and what is kept of a pipeline.  Every value of them is read back from what it is written
  as, in whatever order the members of objects stand, and so reading, writing and reading
  again comes to the same as reading once, whichever spelling was read first.  Main statement:
  `documents_read_back`.
-/
import CiPipeline.Proofs.Time.ReadBack
import CiPipeline.Settings.Basic
import CiPipeline.Store.StoredPipeline

namespace CiPipeline

open Json (Codec Doc Field Record)

/-! ## §1. Reading and writing in turn. -/

/-- Documents of a type survive being read and written in turn. -/
structure Json.Codec.ReadsBack {α : Type} (c : Codec α) : Prop where
  /-- Every value is read back from what it is written as. -/
  written : c.Lawful
  /-- What a text is read as, it is read as again when it has been written anew. -/
  again : ∀ d : Doc, (c.decode d >>= fun a => c.decode (Doc.ofJson (c.encode a))) = c.decode d

theorem Json.Codec.Lawful.readsBack {α : Type} {c : Codec α} (hc : c.Lawful) : c.ReadsBack := by
  refine ⟨hc, fun d => ?_⟩
  cases c.decode d with
  | error e => rfl
  | ok a => exact (hc a).decode_eq

/-! ## §2. Other spellings. -/

/-- What is absent from a rule may be written as null. -/
theorem Rule.codec_reads_null (r : Rule) :
    Rule.codec.Reads
      (.object
        [("if_ref", Codec.string.option.encode r.ifRef), ("when", When.codec.option.encode r.when)])
      r := by
  have hifRef := Codec.option_lawful Codec.string_lawful Codec.string_neverNull r.ifRef
  have hwhen := Codec.option_lawful When.codec_lawful (Codec.variants_neverNull _ _) r.when
  exact Record.codec_reads (t := (r.ifRef, r.when, ())) (by decide)
    (.inr ⟨_, _, rfl, hifRef, .inr ⟨_, _, rfl, hwhen, rfl⟩⟩)

/-- What is absent from a stage may be written as null. -/
theorem StageDefinition.codec_reads_null (s : StageDefinition) :
    StageDefinition.codec.Reads
      (.object
        [("name", .string s.name), ("index", Codec.uint64.option.encode s.index),
         ("builds", JobDefinition.codec.list.encode s.jobs)])
      s := by
  have hname := Codec.string_lawful s.name
  have hindex := Codec.option_lawful Codec.uint64_lawful Codec.uint64_neverNull s.index
  have hjobs := Codec.list_lawful JobDefinition.codec_lawful s.jobs
  exact Record.codec_reads (t := (s.name, s.index, s.jobs, ())) (by decide)
    (.inr ⟨_, _, rfl, hname, .inr ⟨_, _, rfl, hindex, .inr ⟨_, _, rfl, hjobs, rfl⟩⟩⟩)

/-- A gate as it is written with its projects in some order. -/
def Gate.listing (g : Gate) (ids : List ProjectId) : Json :=
  .object [("enabled", .bool g.enabled), ("projects", ProjectId.codec.list.encode ids)]

/-- Settings as they are written with the projects of their gate in some order. -/
def Settings.listing (s : Settings) (ids : List ProjectId) : Json :=
  .object
    [("max_needs", Codec.uint64.encode s.maxNeeds),
     ("features", .object
       [("seed_block_after_workflow_rules", s.features.seedBlockAfterWorkflowRules.listing ids)])]

theorem Gate.codec_reads_listing {g : Gate} {ids : List ProjectId} (h : ids.Perm g.projects.ids) :
    Gate.codec.Reads (g.listing ids) g := by
  have henabled := Codec.bool_lawful g.enabled
  have hprojects := ProjectSet.codec_reads h
  exact Record.codec_reads (t := (g.enabled, g.projects, ())) (by decide)
    (.inr ⟨_, _, rfl, henabled, .inr ⟨_, _, rfl, hprojects, rfl⟩⟩)

/-- The projects of a gate are a set: settings are read back in whatever order they are listed. -/
theorem Settings.codec_reads_listing {s : Settings} {ids : List ProjectId}
    (h : ids.Perm s.features.seedBlockAfterWorkflowRules.projects.ids) :
    Settings.codec.Reads (s.listing ids) s := by
  have hmaxNeeds := Codec.uint64_lawful s.maxNeeds
  have hgate := Gate.codec_reads_listing h
  have hfeatures : Features.codec.Reads _ s.features :=
    Record.codec_reads (t := (s.features.seedBlockAfterWorkflowRules, ())) (by decide)
      (.inr ⟨_, _, rfl, hgate, rfl⟩)
  exact Record.codec_reads (t := (s.maxNeeds, s.features, ())) (by decide)
    (.inr ⟨_, _, rfl, hmaxNeeds, .inr ⟨_, _, rfl, hfeatures, rfl⟩⟩)

/-! ## §3. Documents. -/

theorem StoredPipeline.codec_lawful : StoredPipeline.codec.Lawful :=
  Record.codec_lawful
    ⟨Field.nullable_lawful Codec.int64_lawful Codec.int64_neverNull,
     Field.required_lawful ProjectId.codec_lawful,
     Field.nullable_lawful Codec.int64_lawful Codec.int64_neverNull,
     Field.required_lawful Codec.string_lawful,
     Field.nullable_lawful Codec.int64_lawful Codec.int64_neverNull,
     Field.nullable_lawful Codec.string_lawful Codec.string_neverNull,
     Field.required_lawful Source.codec_lawful, Field.required_lawful Codec.bool_lawful,
     Field.required_lawful (Codec.dict_lawful Codec.string_lawful),
     Field.required_lawful (Codec.list_lawful StoredStage.codec_lawful),
     Field.required_lawful Time.Instant.codec_lawful, trivial⟩
    (by decide) fun _ => rfl

/-- **Documents are read back from what they are written as**, and so are the other spellings
that a writer may choose: null for what is absent, a need as the name of its job, and the
projects of a gate in any order. -/
theorem documents_read_back :
    Definition.codec.ReadsBack ∧ Settings.codec.ReadsBack ∧ Graph.Stage.codec.ReadsBack ∧
      StoredPipeline.codec.ReadsBack ∧
      (∀ r : Rule, Rule.codec.Reads
        (.object
          [("if_ref", Codec.string.option.encode r.ifRef),
           ("when", When.codec.option.encode r.when)]) r) ∧
      (∀ s : StageDefinition, StageDefinition.codec.Reads
        (.object
          [("name", .string s.name), ("index", Codec.uint64.option.encode s.index),
           ("builds", JobDefinition.codec.list.encode s.jobs)]) s) ∧
      (∀ job : String, Need.codec.Reads (.string job) (.of job)) ∧
      ∀ (s : Settings) (ids : List ProjectId),
        ids.Perm s.features.seedBlockAfterWorkflowRules.projects.ids →
          Settings.codec.Reads (s.listing ids) s := by
  refine ⟨?_, ?_, ?_, ?_, ?_, ?_, ?_, ?_⟩
  · exact Definition.codec_lawful.readsBack
  · exact Settings.codec_lawful.readsBack
  · exact Graph.Stage.codec_lawful.readsBack
  · exact StoredPipeline.codec_lawful.readsBack
  · exact Rule.codec_reads_null
  · exact StageDefinition.codec_reads_null
  · exact Need.codec_reads_name
  · exact fun s ids h => Settings.codec_reads_listing h

/-- A stage in other spellings than its own, with its members in another order. -/
example :
    StageDefinition.codec.decode (Doc.ofJson (.object
      [("builds", .array
         [.object
           [("needs", .array [.string "compile"]), ("when", .object [("manual", .null)]),
            ("name", .string "rspec")]]),
       ("index", .null), ("name", .string "test")])) =
      .ok ⟨"test", none, [⟨"rspec", [], [.of "compile"], [], .manual, false, .empty⟩]⟩ := by
  rfl

end CiPipeline
