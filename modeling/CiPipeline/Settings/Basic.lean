/-
  CiPipeline.Settings.Basic
  ─────────────────────────
  **Settings of the chain that creates pipelines.**

  The settings hold the largest count of needs of a job and the gates of features.
  A gate is open for all projects or for those that it lists.
-/
import CiPipeline.Project.Basic

namespace CiPipeline

open Json (Codec Field Record Fault)

/-! ## §1. Gates. -/

/-- A gate of a feature: open for all projects, or for the listed ones. -/
structure Gate where
  enabled : Bool
  projects : ProjectSet
  deriving DecidableEq

namespace Gate

/-- The gate that is closed for all projects. -/
def closed : Gate := ⟨false, .empty⟩

/-- The gate that is open for all projects. -/
def everyone : Gate := ⟨true, .empty⟩

/-- The gate that is open for the listed projects. -/
def only (ids : List ProjectId) : Gate := ⟨false, .ofList ids⟩

instance : Inhabited Gate := ⟨closed⟩

/-- The gate is open for a project. -/
def isOpenFor (g : Gate) (p : ProjectId) : Bool :=
  g.enabled || g.projects.contains p

/-- The fields of a gate. -/
def record :=
  Record.cons (.defaulted "enabled" .bool false) <|
  .cons (.defaulted "projects" ProjectSet.codec .empty) <|
  .nil

/-- The written form of a gate. -/
def codec : Codec Gate :=
  record.codec "FeatureGate" (fun (enabled, projects, _) => ⟨enabled, projects⟩)
    (fun g => (g.enabled, g.projects, ()))

theorem codec_lawful : codec.Lawful :=
  Record.codec_lawful
    ⟨Field.defaulted_lawful Codec.bool_lawful, Field.defaulted_lawful ProjectSet.codec_lawful,
     trivial⟩
    (by decide) fun _ => rfl

end Gate

/-- The gates of all features.  Behind the only one, the caller's seed block runs
after the workflow rules instead of during seeding. -/
structure Features where
  seedBlockAfterWorkflowRules : Gate
  deriving DecidableEq, Inhabited

namespace Features

/-- The fields of the gates. -/
def record :=
  Record.cons (.defaulted "seed_block_after_workflow_rules" Gate.codec .closed) <|
  .nil

/-- The written form of the gates. -/
def codec : Codec Features :=
  record.codec "FeatureFlags" (fun (gate, _) => ⟨gate⟩)
    (fun f => (f.seedBlockAfterWorkflowRules, ()))

theorem codec_lawful : codec.Lawful :=
  Record.codec_lawful ⟨Field.defaulted_lawful Gate.codec_lawful, trivial⟩
    (by decide) fun _ => rfl

end Features

/-- The gates as they stand for one project. -/
structure ResolvedFeatures where
  seedBlockAfterWorkflowRules : Bool
  deriving DecidableEq, Repr, Inhabited

/-- The gates as they stand for a project. -/
def Features.resolve (f : Features) (p : ProjectId) : ResolvedFeatures :=
  ⟨f.seedBlockAfterWorkflowRules.isOpenFor p⟩

/-! ## §2. Settings. -/

/-- The largest count of needs of a job, unless it is set otherwise. -/
def defaultMaxNeeds : UInt64 := 50

/-- The settings of the chain. -/
structure Settings where
  maxNeeds : UInt64
  features : Features
  deriving DecidableEq

namespace Settings

/-- The settings that hold unless they are set otherwise. -/
def standard : Settings := ⟨defaultMaxNeeds, ⟨.closed⟩⟩

instance : Inhabited Settings := ⟨standard⟩

/-- The settings with another limit of needs. -/
def limitedTo (s : Settings) (n : UInt64) : Settings := { s with maxNeeds := n }

/-- The settings with other gates. -/
def gatedBy (s : Settings) (f : Features) : Settings := { s with features := f }

/-- The settings with the gate of the deferred seed block open or closed for all
projects; the listed ones stay. -/
def deferringBlock (s : Settings) (b : Bool) : Settings :=
  { s with features :=
      ⟨{ s.features.seedBlockAfterWorkflowRules with enabled := b }⟩ }

/-- The fields of the settings. -/
def record :=
  Record.cons (.defaulted "max_needs" .uint64 defaultMaxNeeds) <|
  .cons (.defaulted "features" Features.codec ⟨.closed⟩) <|
  .nil

/-- The written form of the settings. -/
def codec : Codec Settings :=
  record.codec "ChainConfig" (fun (maxNeeds, features, _) => ⟨maxNeeds, features⟩)
    (fun s => (s.maxNeeds, s.features, ()))

theorem codec_lawful : codec.Lawful :=
  Record.codec_lawful
    ⟨Field.defaulted_lawful Codec.uint64_lawful, Field.defaulted_lawful Features.codec_lawful,
     trivial⟩
    (by decide) fun _ => rfl

end Settings

/-- Why settings are refused. -/
inductive SettingsError where
  /-- The text is not that of settings. -/
  | unreadable (fault : Fault)
  /-- A variable holds a value that cannot be used. -/
  | invalidOverride (key value : String)
  deriving DecidableEq

/-- The wording of a text that breaks off. -/
private def breakWording : Json.Break → String
  | .malformed => "malformed text"
  | .truncated => "unexpected end of text"

/-- The wording of a refusal. -/
def SettingsError.message : SettingsError → String
  | .unreadable (.mismatch m) => "invalid chain configuration: " ++ m.message
  | .unreadable (.broken b) => "invalid chain configuration: " ++ breakWording b
  | .invalidOverride key value => s!"invalid value for {key}: '{value}'"

/-- Reads settings from a JSON text; what is missing takes its default. -/
def Settings.ofText (text : String) : Except SettingsError Settings :=
  (Settings.codec.ofText text).mapError .unreadable

end CiPipeline
