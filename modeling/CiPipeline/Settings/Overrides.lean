/-
  CiPipeline.Settings.Overrides
  ─────────────────────────────
  **Settings overridden by variables.**

  Two variables override settings, all others are passed over.  Their values are
  freed from blanks at both ends first.  The variables are taken in order, so the
  last value of each one counts, and the first value that cannot be used is
  reported as it was given.
-/
import CiPipeline.Settings.Basic
import CiPipeline.Text.Blank

namespace CiPipeline

/-! ## §1. Values of variables. -/

/-- The number that decimal digits stand for. -/
def digitsToNat (cs : List Char) : Nat :=
  cs.foldl (fun n c => n * 10 + (c.toNat - '0'.toNat)) 0

/-- A whole number of 64 bits without a sign: decimal digits, at least one, that
may follow a plus sign. -/
def parseCount (cs : List Char) : Option UInt64 :=
  let digits := if cs.head? = some '+' then cs.tail else cs
  if digits.isEmpty || !digits.all Char.isDigit then none
  else
    let n := digitsToNat digits
    if n < UInt64.size then some (UInt64.ofNat n) else none

/-- The texts of a switch that is on. -/
def onTexts : List String := ["1", "true", "yes", "on"]

/-- The texts of a switch that is off. -/
def offTexts : List String := ["0", "false", "no", "off"]

/-- The position of a switch, whatever the case of its ASCII letters. -/
def parseSwitch (cs : List Char) : Option Bool :=
  let text := String.ofList (cs.map Char.toLower)
  if onTexts.contains text then some true
  else if offTexts.contains text then some false
  else none

/-! ## §2. Overriding. -/

/-- The variable that overrides the limit of needs. -/
def maxNeedsKey : String := "PIPELINE_CHAIN_MAX_NEEDS"

/-- The variable that opens or closes the gate of the deferred seed block. -/
def seedBlockKey : String := "PIPELINE_CHAIN_SEED_BLOCK_AFTER_WORKFLOW_RULES"

/-- Sets a variable: in its place if it is set already, else behind all others. -/
def setVariable (key value : String) : List (String × String) → List (String × String)
  | [] => [(key, value)]
  | v :: vars => if v.1 = key then (key, value) :: vars else v :: setVariable key value vars

/-- The variables of an environment in which some are set one after the other. -/
def environment (vars : List (String × String)) : List (String × String) :=
  vars.foldl (fun vars v => setVariable v.1 v.2 vars) []

namespace Settings

/-- The settings with one variable applied. -/
def override (s : Settings) (key value : String) : Except SettingsError Settings :=
  -- a refusal shows the value as it was given, so both forms are kept
  let trimmed := Text.trim value.toList
  if key = maxNeedsKey then
    match parseCount trimmed with
    | some n => .ok (s.limitedTo n)
    | none => .error (.invalidOverride key value)
  else if key = seedBlockKey then
    match parseSwitch trimmed with
    | some b => .ok (s.deferringBlock b)
    | none => .error (.invalidOverride key value)
  else .ok s

/-- The settings with variables applied one after the other. -/
def overrideAll (s : Settings) : List (String × String) → Except SettingsError Settings
  | [] => .ok s
  | (key, value) :: vars =>
      match s.override key value with
      | .ok s => s.overrideAll vars
      | .error e => .error e

end Settings

end CiPipeline
