/-
  CiPipeline.Regex.Names
  ──────────────────────
  **Names of classes of characters.**

  The classes of ASCII that are written as `[:alpha:]`, and the properties that
  are written as `\p`: the general categories and a few others, but neither scripts
  nor ages.  A leading `is` does not matter in the name of a property, and neither do
  case, blanks, hyphens and underscores behind it.
-/
import CiPipeline.Regex.Tree

namespace CiPipeline.Regex

open Text (Category)

/-- The ranges of a class of ASCII with a name. -/
def namedClass? : String → Option (List (Char × Char))
  | "alnum" => some [('0', '9'), ('A', 'Z'), ('a', 'z')]
  | "alpha" => some [('A', 'Z'), ('a', 'z')]
  | "ascii" => some [('\x00', '\x7f')]
  | "blank" => some [('\t', '\t'), (' ', ' ')]
  | "cntrl" => some [('\x00', '\x1f'), ('\x7f', '\x7f')]
  | "digit" => some [('0', '9')]
  | "graph" => some [('!', '~')]
  | "lower" => some [('a', 'z')]
  | "print" => some [(' ', '~')]
  | "punct" => some [('!', '/'), (':', '@'), ('[', '\x60'), ('\x7b', '~')]
  | "space" => some [('\t', '\r'), (' ', ' ')]
  | "upper" => some [('A', 'Z')]
  | "word" => some [('0', '9'), ('A', 'Z'), ('_', '_'), ('a', 'z')]
  | "xdigit" => some [('0', '9'), ('A', 'F'), ('a', 'f')]
  | _ => none

/-- The long names of the categories and of their groups, with the short names
that they stand for. -/
def categoryNames : List (String × String) :=
  [("letter", "l"), ("casedletter", "lc"), ("uppercaseletter", "lu"), ("lowercaseletter", "ll"),
   ("titlecaseletter", "lt"), ("modifierletter", "lm"), ("otherletter", "lo"),
   ("mark", "m"), ("combiningmark", "m"), ("nonspacingmark", "mn"), ("spacingmark", "mc"),
   ("enclosingmark", "me"), ("number", "n"), ("decimalnumber", "nd"), ("digit", "nd"),
   ("letternumber", "nl"), ("othernumber", "no"), ("punctuation", "p"), ("punct", "p"),
   ("connectorpunctuation", "pc"), ("dashpunctuation", "pd"), ("openpunctuation", "ps"),
   ("closepunctuation", "pe"), ("initialpunctuation", "pi"), ("finalpunctuation", "pf"),
   ("otherpunctuation", "po"), ("symbol", "s"), ("mathsymbol", "sm"), ("currencysymbol", "sc"),
   ("modifiersymbol", "sk"), ("othersymbol", "so"), ("separator", "z"),
   ("spaceseparator", "zs"), ("lineseparator", "zl"), ("paragraphseparator", "zp"),
   ("other", "c"), ("control", "cc"), ("cntrl", "cc"), ("format", "cf"), ("privateuse", "co"),
   ("unassigned", "cn")]

/-- The categories of a short name: one of them, or all of a group.  No character is a
surrogate, and there is no name for that. -/
def categoriesOf (short : String) : List Category :=
  if short = "lc" then [.uppercaseLetter, .lowercaseLetter, .titlecaseLetter]
  else
    (Category.all.filter (· ≠ .surrogate)).filter fun k =>
      let name := k.shortName.toList.map Char.toLower
      String.ofList name = short || String.ofList (name.take 1) = short

/-- The name of a property without what does not matter in it.  The name `isc` keeps its
`is`, since it is not the name of the group `c`. -/
def normalName (cs : List Char) : String :=
  let leading := (cs.take 2).map Char.toLower = ['i', 's']
  let named := if leading then cs.drop 2 else cs
  let kept := named.filter fun c => c.toNat < 128 && c ≠ ' ' && c ≠ '-' && c ≠ '_'
  let name := String.ofList (kept.map Char.toLower)
  if leading && name = "c" then "isc" else name

/-- The property of a general category with a name, or of one of the sets that count as
such. -/
def categoryProperty? (name : String) : Option Property :=
  match name with
  | "any" => some .any
  | "assigned" => some .assigned
  | "ascii" => some .ascii
  | name =>
      match categoriesOf (((categoryNames.find? fun e => e.1 = name).map (·.2)).getD name) with
      | [] => none
      | categories => some (.general categories)

/-- The property of a name. -/
def propertyOfName? (name : String) : Option Property :=
  match name with
  | "alphabetic" | "alpha" => some .alphabetic
  | "whitespace" | "wspace" | "space" => some .blank
  | name => categoryProperty? name

/-- The property that is written between braces: a name, or the name of the
general category and one of its values. -/
def property? (cs : List Char) : Option (Property × Bool) :=
  let mark := fun c => c = '=' || c = ':'
  match cs.dropWhile (!mark ·) with
  | [] => (propertyOfName? (normalName cs)).map fun p => (p, false)
  | _ :: value =>
      let key := cs.takeWhile (!mark ·)
      let unequal := cs.getD key.length ' ' = '=' && key.getLast? = some '!'
      let key := normalName (if unequal then key.dropLast else key)
      if key = "gc" || key = "generalcategory" then
        (categoryProperty? (normalName value)).map fun p => (p, unequal)
      else none

end CiPipeline.Regex
