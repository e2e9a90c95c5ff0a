/-
  CiPipeline.Definition.Samples
  ─────────────────────────────
  **Small definitions to try a chain with.**
-/
import CiPipeline.Definition.Basic

namespace CiPipeline.Definition

/-- One job builds, and another one tests what it has built. -/
def buildAndTest : Definition :=
  .ofStages
    [.named "build" [.named "compile"],
     .named "test" [(JobDefinition.named "rspec").needing (.of "compile")]]

/-- A job needs one that does not exist. -/
def undefinedNeed : Definition :=
  .ofStages
    [.named "build" [.named "compile"],
     .named "test" [(JobDefinition.named "rspec").needing (.of "setup")]]

/-- Two jobs of different stages need each other. -/
def cyclicNeeds : Definition :=
  .ofStages
    [.named "build" [(JobDefinition.named "lint").needing (.of "rspec")],
     .named "test" [(JobDefinition.named "rspec").needing (.of "lint")]]

/-- A job is defined twice, another one needs what does not exist, and two need
each other. -/
def severalErrors : Definition :=
  .ofStages
    [.named "build" [.named "compile", .named "compile"],
     .named "test"
       [(JobDefinition.named "rspec").needing (.of "setup"),
        (JobDefinition.named "a").needing (.of "b"),
        (JobDefinition.named "b").needing (.of "a")]]

/-- The rules exclude every job on the branch `main`. -/
def nothingOnMain : Definition :=
  .ofStages
    [.named "deploy" [(JobDefinition.named "ship").ruledBy (.onRef "^release-" .onSuccess)]]

/-- There is no pipeline for the branch `main`. -/
def filteredOnMain : Definition :=
  buildAndTest.filteredBy [.onRef "^main$" .never, .onAll .always]

/-- The sample of a name. -/
def sample? : String → Option Definition
  | "build_and_test" => some buildAndTest
  | "undefined_need" => some undefinedNeed
  | "cyclic_needs" => some cyclicNeeds
  | "several_errors" => some severalErrors
  | "nothing_on_main" => some nothingOnMain
  | "filtered_on_main" => some filteredOnMain
  | _ => none

end CiPipeline.Definition
