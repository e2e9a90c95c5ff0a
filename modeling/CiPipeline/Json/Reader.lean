/-
  CiPipeline.Json.Reader
  ──────────────────────
  **Laying a text out as a tree.**

  Blanks are the space, the tab and the two line ends.  A bracket that is opened
  inside 127 others marks what it holds as too deep for a kept value.  Each step
  goes on with a text that is no longer than the one before, and each bracket or
  comma takes a character off it, which is why the walk ends.
-/
import CiPipeline.Json.NumberText
import CiPipeline.Json.QuotedText

namespace CiPipeline.Json

/-- The characters that may stand between the pieces of a text. -/
def isJsonBlank (c : Char) : Bool :=
  c = ' ' || c = '\t' || c = '\n' || c = '\r'

/-- The text after its leading blanks. -/
def skipBlanks (cs : List Char) : List Char :=
  cs.dropWhile isJsonBlank

theorem skipBlanks_length_le (cs : List Char) : (skipBlanks cs).length ≤ cs.length :=
  (List.dropWhile_sublist _).length_le

/-- What is left after the first character is shorter than the text. -/
theorem length_lt_of_skipBlanks {cs rest : List Char} {c : Char}
    (h : skipBlanks cs = c :: rest) : rest.length < cs.length := by
  have := skipBlanks_length_le cs
  rw [h, List.length_cons] at this
  omega

/-- A word that breaks off, by what it would have stood for. -/
def tornWord (b : Break) : Doc → Doc
  | .null => .tornNull b
  | _ => .torn b (some b)

/-- Reads on through a word, letter by letter. -/
def readWord (found : Doc) : List Char → List Char → Doc × List Char
  | [], rest => (found, rest)
  | _ :: _, [] => (tornWord .truncated found, [])
  | w :: word, c :: rest =>
      if c = w then readWord found word rest
      else (tornWord .malformed found, [])

theorem readWord_length_le (found : Doc) :
    ∀ word cs : List Char, (readWord found word cs).2.length ≤ cs.length
  | [], _ => Nat.le_refl _
  | _ :: _, [] => Nat.le_refl _
  | w :: word, c :: rest => by
      unfold readWord
      split
      · exact Nat.le_succ_of_le (readWord_length_le found word rest)
      · exact Nat.zero_le _

/-- The deepest nesting of a kept value. -/
def depthLimit : Nat := 127

/-- Marks an array or an object at a given depth. -/
private def atDepth (depth : Nat) (d : Doc) : Doc :=
  if depth > depthLimit then .tooDeep d else d

/-- Reading a piece leaves a text that is no longer. -/
private abbrev Piece (α : Type) (cs : List Char) : Type :=
  { r : α × List Char // r.2.length ≤ cs.length }

mutual

/-- Reads the value that a text starts with; `depth` brackets are open. -/
private def readValue (depth : Nat) (cs : List Char) : Piece Doc cs :=
  match h : skipBlanks cs with
  | [] => ⟨(.missing, []), Nat.zero_le _⟩
  | c :: rest =>
      have hrest := length_lt_of_skipBlanks h
      if c = '[' then
        let r := readItems (depth + 1) rest
        ⟨(atDepth (depth + 1) (.array r.1.1.1 r.1.1.2), r.1.2), Nat.le_trans r.2 (Nat.le_of_lt hrest)⟩
      else if c = '\x7b' then
        let r := readMembers (depth + 1) rest
        ⟨(atDepth (depth + 1) r.1.1, r.1.2), Nat.le_trans r.2 (Nat.le_of_lt hrest)⟩
      else if c = '"' then
        let r := readQuoted rest
        ⟨(.text r.1, r.2), Nat.le_trans (readQuoted_length_le rest) (Nat.le_of_lt hrest)⟩
      else if c = 'n' then
        ⟨readWord .null ['u', 'l', 'l'] rest,
          Nat.le_trans (readWord_length_le ..) (Nat.le_of_lt hrest)⟩
      else if c = 't' then
        ⟨readWord (.bool true) ['r', 'u', 'e'] rest,
          Nat.le_trans (readWord_length_le ..) (Nat.le_of_lt hrest)⟩
      else if c = 'f' then
        ⟨readWord (.bool false) ['a', 'l', 's', 'e'] rest,
          Nat.le_trans (readWord_length_le ..) (Nat.le_of_lt hrest)⟩
      else if c = '-' ∨ c.isDigit then
        ⟨readNumber (c :: rest), Nat.le_trans (readNumber_length_le _) hrest⟩
      else ⟨(.torn .malformed (some .malformed), []), Nat.zero_le _⟩
  termination_by (cs.length, 0)

/-- Reads the items after an opening bracket. -/
private def readItems (depth : Nat) (cs : List Char) : Piece (List Doc × Ending) cs :=
  match h : skipBlanks cs with
  | [] => ⟨(([], .broken .truncated), []), Nat.zero_le _⟩
  | c :: rest =>
      if c = ']' then
        ⟨(([], .closed), rest), Nat.le_of_lt (length_lt_of_skipBlanks h)⟩
      else readItemsFrom depth cs
  termination_by (cs.length, 2)

/-- Reads items, where one must stand. -/
private def readItemsFrom (depth : Nat) (cs : List Char) : Piece (List Doc × Ending) cs :=
  let item := readValue depth cs
  match h : skipBlanks item.1.2 with
  | [] => ⟨(([item.1.1], .broken .truncated), []), Nat.zero_le _⟩
  | c :: rest =>
      have hrest : rest.length < cs.length :=
        Nat.lt_of_lt_of_le (length_lt_of_skipBlanks h) item.2
      if c = ',' then
        let more := readItemsFrom depth rest
        ⟨((item.1.1 :: more.1.1.1, more.1.1.2), more.1.2),
          Nat.le_trans more.2 (Nat.le_of_lt hrest)⟩
      else if c = ']' then ⟨(([item.1.1], .closed), rest), Nat.le_of_lt hrest⟩
      else ⟨(([item.1.1], .broken .malformed), []), Nat.zero_le _⟩
  termination_by (cs.length, 1)

/-- Reads the members after an opening brace. -/
private def readMembers (depth : Nat) (cs : List Char) : Piece Doc cs :=
  match h : skipBlanks cs with
  | [] => ⟨(.object [] (.broken .truncated), []), Nat.zero_le _⟩
  | c :: rest =>
      if c = '\x7d' then
        ⟨(.object [] .closed, rest), Nat.le_of_lt (length_lt_of_skipBlanks h)⟩
      else if c = '"' then
        let r := readMembersFrom depth cs
        ⟨(.object r.1.1.1 r.1.1.2, r.1.2), r.2⟩
      else
        let r := readValue depth cs
        ⟨(.keyless r.1.1, r.1.2), r.2⟩
  termination_by (cs.length, 2)

/-- Reads members, where the key of one must stand. -/
private def readMembersFrom (depth : Nat) (cs : List Char) :
    Piece (List (Quoted × Doc) × Ending) cs :=
  match h : skipBlanks cs with
  | [] =>
      -- the text ends behind a comma, within the next key
      ⟨(([(.torn .truncated (some .truncated), .missing)], .broken .truncated), []),
        Nat.zero_le _⟩
  | c :: rest =>
      have hrest := length_lt_of_skipBlanks h
      if c = '"' then
        let key := readQuoted rest
        have hkey : key.2.length < cs.length :=
          Nat.lt_of_le_of_lt (readQuoted_length_le rest) hrest
        let value : Piece Doc cs :=
          match hcolon : skipBlanks key.2 with
          | [] => ⟨(.missing, []), Nat.zero_le _⟩
          | c :: rest =>
              have hrest : rest.length < cs.length :=
                Nat.lt_trans (length_lt_of_skipBlanks hcolon) hkey
              if c = ':' then
                let r := readValue depth rest
                ⟨r.1, Nat.le_trans r.2 (Nat.le_of_lt hrest)⟩
              else ⟨(.torn .malformed (some .malformed), []), Nat.zero_le _⟩
        match hnext : skipBlanks value.1.2 with
        | [] => ⟨(([(key.1, value.1.1)], .broken .truncated), []), Nat.zero_le _⟩
        | c :: rest =>
            have hrest : rest.length < cs.length :=
              Nat.lt_of_lt_of_le (length_lt_of_skipBlanks hnext) value.2
            if c = ',' then
              let more := readMembersFrom depth rest
              ⟨(((key.1, value.1.1) :: more.1.1.1, more.1.1.2), more.1.2),
                Nat.le_trans more.2 (Nat.le_of_lt hrest)⟩
            else if c = '\x7d' then
              ⟨(([(key.1, value.1.1)], .closed), rest), Nat.le_of_lt hrest⟩
            else ⟨(([(key.1, value.1.1)], .broken .malformed), []), Nat.zero_le _⟩
      else ⟨(([], .broken .malformed), []), Nat.zero_le _⟩
  termination_by (cs.length, 1)

end

/-- A whole text: its value, and whether nothing follows the value. -/
def readText (s : String) : Doc × Ending :=
  let r := readValue 0 s.toList
  (r.1.1, if (skipBlanks r.1.2).isEmpty then .closed else .broken .malformed)

end CiPipeline.Json
