/-
  CiPipeline.Json.Fault
  ─────────────────────
  **Why a text is refused as a value of a type.**

  Either the text breaks off (it is no JSON), or a sound piece of it has the wrong
  shape.  A mismatch keeps its cause; `Mismatch.message` is its wording.
-/
import CiPipeline.Json.Doc
import CiPipeline.Text.Quoted

namespace CiPipeline.Json

/-- What was found where something else was expected. -/
inductive Found where
  | null
  | bool (value : Bool)
  | integer (value : Int)
  | float (value : Decimal.Binary64)
  | string (value : String)
  | sequence
  | map
  deriving DecidableEq

/-- The wording of what was found. -/
def Found.message : Found → String
  | .null => "null"
  | .bool b => s!"boolean `{b}`"
  | .integer n => s!"integer `{n}`"
  | .float x => s!"floating point `{x.text}`"
  | .string s => s!"string {Text.quote s}"
  | .sequence => "sequence"
  | .map => "map"

/-- How a sound piece of JSON fails to be a value of a type. -/
inductive Mismatch where
  | missingField (name : String)
  | duplicateField (name : String)
  | unknownVariant (name : String) (known : List String)
  | invalidType (found : Found) (expected : String)
  | invalidValue (found : Found) (expected : String)
  | invalidLength (length : Nat) (expected : String)
  /-- None of the spellings of a type fits. -/
  | noSpelling (type : String)
  /-- A text that is no date and time, with the reason. -/
  | badTime (reason : String)
  deriving DecidableEq

/-- The names that are known, for a message. -/
def knownNames : List String → String
  | [] => "there are no variants"
  | [a] => s!"expected `{a}`"
  | [a, b] => s!"expected `{a}` or `{b}`"
  | names => "expected one of " ++ ", ".intercalate (names.map fun n => s!"`{n}`")

/-- The wording of a mismatch. -/
def Mismatch.message : Mismatch → String
  | .missingField name => s!"missing field `{name}`"
  | .duplicateField name => s!"duplicate field `{name}`"
  | .unknownVariant name known => s!"unknown variant `{name}`, {knownNames known}"
  | .invalidType found expected => s!"invalid type: {found.message}, expected {expected}"
  | .invalidValue found expected => s!"invalid value: {found.message}, expected {expected}"
  | .invalidLength length expected => s!"invalid length {length}, expected {expected}"
  | .noSpelling type => s!"data did not match any variant of untagged enum {type}"
  | .badTime reason => reason

/-- Why a text is refused. -/
inductive Fault where
  | broken (cause : Break)
  | mismatch (cause : Mismatch)
  deriving DecidableEq

/-- The outcome of a step that only asks for sound JSON. -/
def orBroken {α : Type} : Except Break α → Except Fault α
  | .ok a => .ok a
  | .error b => .error (.broken b)

/-- What stands at the start of a piece; the piece itself is read so far as it has
no parts. -/
def Doc.found : Doc → Except Break Found
  | .null => .ok .null
  | .bool b => .ok (.bool b)
  | .number (.integer n) => .ok (.integer n)
  | .number (.float x) => .ok (.float x)
  | .text piece => piece.keep.map .string
  | .torn kept _ => .error kept
  | .tornNull b => .error b
  | .missing => .error .truncated
  | .array _ _ => .ok .sequence
  | .object _ _ => .ok .map
  | .keyless _ => .ok .map
  | .tooDeep (.array _ _) => .ok .sequence
  | .tooDeep _ => .ok .map

/-- A piece that is not of the expected type. -/
def Doc.refuse {α : Type} (d : Doc) (expected : String) : Except Fault α :=
  match d.found with
  | .ok found => .error (.mismatch (.invalidType found expected))
  | .error b => .error (.broken b)

end CiPipeline.Json
