/-
  CiPipeline.Log
  ──────────────
  **Lines of a log.**
-/

namespace CiPipeline

/-- How much a line matters. -/
inductive Level where
  | trace
  | debug
  | info
  | warn
  | error
  deriving DecidableEq, Repr

/-- The name of a level. -/
def Level.name : Level → String
  | .trace => "TRACE"
  | .debug => "DEBUG"
  | .info => "INFO"
  | .warn => "WARN"
  | .error => "ERROR"

/-- A line of a log. -/
structure LogLine where
  level : Level
  message : String
  deriving DecidableEq, Repr

namespace LogLine

/-- A line for those who look for a fault. -/
def debug (message : String) : LogLine := ⟨.debug, message⟩

/-- A line about the normal course. -/
def info (message : String) : LogLine := ⟨.info, message⟩

/-- A line about something that ought not to be. -/
def warn (message : String) : LogLine := ⟨.warn, message⟩

end LogLine

end CiPipeline
