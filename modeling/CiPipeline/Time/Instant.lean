/-
  CiPipeline.Time.Instant
  ───────────────────────
  **Moments in universal time, and their text.**

  A moment is a date of the Gregorian calendar and a time of day in universal
  time, to the nanosecond; the second 60 is a leap second.  It is written as
  `2024-01-02T03:04:05.678Z` with no, three, six or nine digits of a fraction, the
  fewest that lose nothing.  When read, the offset from universal time may be any
  below a day; the moment is moved to universal time.
-/
import CiPipeline.Text.Blank

namespace CiPipeline.Time

/-! ## §1. The calendar. -/

/-- A year with 366 days. -/
def isLeapYear (y : Int) : Bool :=
  y % 4 = 0 && (y % 100 ≠ 0 || y % 400 = 0)

/-- The days of a month. -/
def daysInMonth (y : Int) (m : Nat) : Nat :=
  if m = 2 then (if isLeapYear y then 29 else 28)
  else if m = 4 ∨ m = 6 ∨ m = 9 ∨ m = 11 then 30
  else 31

/-- The years that a date may lie in. -/
def isYear (y : Int) : Bool :=
  -262143 ≤ y && y ≤ 262142

/-- A date of the Gregorian calendar. -/
structure Date where
  year : Int
  month : Nat
  day : Nat
  deriving DecidableEq, Repr

namespace Date

/-- The year may be one of a date, the month is one of twelve, and the day is one
of the month. -/
def valid (d : Date) : Bool :=
  isYear d.year && 1 ≤ d.month && d.month ≤ 12 && 1 ≤ d.day && d.day ≤ daysInMonth d.year d.month

/-- The day after. -/
def next (d : Date) : Date :=
  if d.day < daysInMonth d.year d.month then { d with day := d.day + 1 }
  else if d.month < 12 then ⟨d.year, d.month + 1, 1⟩
  else ⟨d.year + 1, 1, 1⟩

/-- The day before. -/
def previous (d : Date) : Date :=
  if 1 < d.day then { d with day := d.day - 1 }
  else if 1 < d.month then ⟨d.year, d.month - 1, daysInMonth d.year (d.month - 1)⟩
  else ⟨d.year - 1, 12, 31⟩

end Date

/-- A time of day to the nanosecond. -/
structure Clock where
  hour : Nat
  minute : Nat
  second : Nat
  nanosecond : Nat
  deriving DecidableEq, Repr

/-- The time of day exists; the second 60 is a leap second. -/
def Clock.valid (c : Clock) : Bool :=
  c.hour < 24 && c.minute < 60 && c.second ≤ 60 && c.nanosecond < 1000000000

/-- A moment in universal time. -/
structure Instant where
  date : Date
  clock : Clock
  valid : (date.valid && clock.valid) = true := by decide
  deriving DecidableEq

instance : Inhabited Instant := ⟨{ date := ⟨1970, 1, 1⟩, clock := ⟨0, 0, 0, 0⟩ }⟩

/-- The start of the year 1970. -/
def epoch : Instant := { date := ⟨1970, 1, 1⟩, clock := ⟨0, 0, 0, 0⟩ }

/-! ## §2. Writing. -/

/-- A number in at least a given count of digits. -/
def padded (width n : Nat) : List Char :=
  let digits := Nat.toDigits 10 n
  List.replicate (width - digits.length) '0' ++ digits

/-- The year: four digits, or a sign and at least four digits when it has more or
lies before the year zero. -/
def yearText (y : Int) : List Char :=
  if 0 ≤ y ∧ y ≤ 9999 then padded 4 y.toNat
  else (if y < 0 then '-' else '+') :: padded 4 y.natAbs

/-- The fraction of a second, in the fewest digits out of none, three, six and
nine that lose nothing. -/
def fractionText (n : Nat) : List Char :=
  if n = 0 then []
  else if n % 1000000 = 0 then '.' :: padded 3 (n / 1000000)
  else if n % 1000 = 0 then '.' :: padded 6 (n / 1000)
  else '.' :: padded 9 n

namespace Instant

/-- The text of a moment, as characters. -/
def chars (t : Instant) : List Char :=
  yearText t.date.year ++ '-' :: padded 2 t.date.month ++ '-' :: padded 2 t.date.day ++
    'T' :: padded 2 t.clock.hour ++ ':' :: padded 2 t.clock.minute ++
    ':' :: padded 2 t.clock.second ++ fractionText t.clock.nanosecond ++ ['Z']

/-- The text of a moment. -/
def text (t : Instant) : String :=
  String.ofList t.chars

end Instant

/-! ## §3. Reading. -/

/-- Why a text is no date and time. -/
inductive TimeError where
  | invalid
  | tooShort
  | tooLong
  | outOfRange
  | impossible
  deriving DecidableEq, Repr

/-- The wording of a refusal. -/
def TimeError.message : TimeError → String
  | .invalid => "input contains invalid characters"
  | .tooShort => "premature end of input"
  | .tooLong => "trailing input"
  | .outOfRange => "input is out of range"
  | .impossible => "no possible date and time matching input"

/-- The value of digits. -/
def digitsValue (cs : List Char) : Nat :=
  cs.foldl (fun n c => n * 10 + (c.toNat - '0'.toNat)) 0

/-- Reads a number of at least one digit and at most a given count of digits. -/
def readNumber (most : Nat) (cs : List Char) : Except TimeError (Nat × List Char) :=
  match (cs.take most).takeWhile Char.isDigit with
  | [] => .error (if cs.isEmpty then .tooShort else .invalid)
  | digits => .ok (digitsValue digits, cs.drop digits.length)

/-- Reads a number between two bounds, after blanks. -/
def readField (least greatest : Nat) (cs : List Char) :
    Except TimeError (Nat × List Char) := do
  let (n, rest) ← readNumber 2 (Text.trimStart cs)
  if least ≤ n ∧ n ≤ greatest then .ok (n, rest) else .error .outOfRange

/-- Reads the year: four digits, or a sign and any count of digits. -/
def readYear (cs : List Char) : Except TimeError (Int × List Char) := do
  let cs := Text.trimStart cs
  let (y, rest) ←
    match cs with
    | '-' :: cs => do
        let (n, rest) ← readNumber cs.length cs
        pure (-(n : Int), rest)
    | '+' :: cs => do
        let (n, rest) ← readNumber cs.length cs
        pure ((n : Int), rest)
    | cs => do
        let (n, rest) ← readNumber 4 cs
        pure ((n : Int), rest)
  if -2147483648 ≤ y ∧ y ≤ 2147483647 then .ok (y, rest) else .error .outOfRange

/-- Reads one given character, after blanks. -/
def readMark (mark : Char) (cs : List Char) : Except TimeError (List Char) :=
  match Text.trimStart cs with
  | [] => .error .tooShort
  | c :: rest => if c = mark then .ok rest else .error .invalid

/-- Reads the mark between the date and the time of day. -/
def readBetween : List Char → Except TimeError (List Char)
  | [] => .error .tooShort
  | c :: rest => if c = 'T' ∨ c = 't' ∨ c = ' ' then .ok rest else .error .invalid

/-- Reads a fraction of a second, if there is one; digits past the ninth are
dropped. -/
def readFraction (cs : List Char) : Except TimeError (Nat × List Char) :=
  match cs with
  | '.' :: cs => do
      let (_, rest) ← readNumber 9 cs
      let count := cs.length - rest.length
      .ok (digitsValue (cs.take count) * Nat.pow 10 (9 - count), rest.dropWhile Char.isDigit)
  | cs => .ok (0, cs)

/-- Two digits at the start of a text. -/
def readPair : List Char → Except TimeError (Nat × Nat × List Char)
  | a :: b :: rest =>
      if a.isDigit && b.isDigit then .ok (digitsValue [a], digitsValue [b], rest)
      else .error .invalid
  | _ => .error .tooShort

/-- Reads an offset from universal time, in seconds. -/
def readOffset (cs : List Char) : Except TimeError (Int × List Char) :=
  match cs with
  | [] => .error .tooShort
  | c :: rest =>
      if c = 'Z' ∨ c = 'z' then .ok (0, rest)
      else if (c = 'U' ∨ c = 'u') ∧ (rest.take 2).map Char.toLower = ['t', 'c'] then
        .ok (0, rest.drop 2)
      else if c = '+' ∨ c = '-' ∨ c = '\u2212' then do
        let (h1, h2, rest) ← readPair rest
        let rest := rest.dropWhile fun c => c = ':' || Text.isBlank c
        let (m1, m2, rest) ← readPair rest
        if m1 > 5 then .error .outOfRange
        else
          let seconds : Int := ((h1 * 10 + h2) * 3600 + (m1 * 10 + m2) * 60 : Nat)
          .ok (if c = '+' then seconds else -seconds, rest)
      else .error .invalid

/-- The moment at which a clock that is ahead of universal time by an offset of
less than a day shows a date and a time of day. -/
def atOffset (d : Date) (c : Clock) (offset : Int) : Date × Clock :=
  let minutes : Int := ((c.hour * 60 + c.minute : Nat) : Int) - offset / 60
  let date := if minutes < 0 then d.previous else if 1440 ≤ minutes then d.next else d
  let minutes := (minutes % 1440).toNat
  (date, { c with hour := minutes / 60, minute := minutes % 60 })

/-- Reads a date and a time of day with an offset from universal time. -/
def Instant.ofChars (cs : List Char) : Except TimeError Instant := do
  let (year, cs) ← readYear cs
  let cs ← readMark '-' cs
  let (month, cs) ← readField 1 12 cs
  let cs ← readMark '-' cs
  let (day, cs) ← readField 1 31 cs
  let cs ← readBetween cs
  let (hour, cs) ← readField 0 23 cs
  let cs ← readMark ':' cs
  let (minute, cs) ← readField 0 59 cs
  let cs ← readMark ':' cs
  let (second, cs) ← readField 0 60 cs
  let (nanosecond, cs) ← readFraction cs
  let (offset, cs) ← readOffset (Text.trimStart cs)
  if !(Text.trimStart cs).isEmpty then .error .tooLong
  else if offset.natAbs ≥ 86400 then .error .outOfRange
  else if !(Date.mk year month day).valid then .error .outOfRange
  else
    let (date, clock) := atOffset ⟨year, month, day⟩ ⟨hour, minute, second, nanosecond⟩ offset
    if h : (date.valid && clock.valid) = true then .ok ⟨date, clock, h⟩ else .error .outOfRange

/-- Reads the text of a moment. -/
def Instant.ofText (s : String) : Except TimeError Instant :=
  Instant.ofChars s.toList

end CiPipeline.Time
