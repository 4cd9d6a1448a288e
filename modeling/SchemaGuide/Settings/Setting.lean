import SchemaGuide.Decimal.Reading
import SchemaGuide.Json.Basic
import SchemaGuide.Settings.Basic

/-!
Settings as files and variables give them: values in tables whose keys ignore case. Later tables are laid over earlier
ones key by key. Reading is lenient with scalars, since variables are only text.
-/

namespace SchemaGuide

inductive Setting where
  | null
  | bool (value : Bool)
  | int (value : Int)
  | float (value : Float)
  | text (value : String)
  | list (elements : List Setting)
  | table (entries : List (String × Setting))

namespace Setting

def empty : Setting := table []

/-- The entries of a table; all else counts as an empty one. -/
def entries : Setting → Entries Setting
  | table entries => entries
  | _ => []

mutual
/-- Lays one more entry over a setting, which becomes a table if it is not one. Tables are merged; any other value
takes the place of what was there. -/
def assign (key : String) : Setting → Setting → Setting
  | table inner, under =>
    let known := under.entries.lookup key.toLower
    table (Entries.put key.toLower (assignAll inner (known.getD empty)) under.entries)
  | value, under => table (Entries.put key.toLower value under.entries)

def assignAll : List (String × Setting) → Setting → Setting
  | [], under => under
  | (key, value) :: rest, under => assignAll rest (assign key value under)
end

/-- The elements of a list; all else counts as an empty one. -/
def elements : Setting → List Setting
  | list elements => elements
  | _ => []

/-- One step to a place: an entry of a table, or an element of a list, counted from the end below zero. -/
inductive Part where
  | entry (key : String)
  | element (position : Int)
  deriving DecidableEq

def isKeyCharacter (c : Char) : Bool := c.isAlphanum || c = ' ' || c = '_' || c = '-'

def plainKey? (text : List Char) : Option (String × List Char) :=
  let key := text.takeWhile isKeyCharacter
  if key.isEmpty then none else some (String.ofList key, text.drop key.length)

/-- A position up to its closing bracket, with spaces around it. -/
def position? (text : List Char) : Option (Int × List Char) :=
  let isSpace (c : Char) := c = ' ' || c = '\t'
  let (negative, unsigned) := match text.dropWhile isSpace with
    | '-' :: rest => (true, rest)
    | rest => (false, rest)
  let digits := unsigned.takeWhile Char.isDigit
  let value : Int := if negative then -(Numeral.value digits) else Numeral.value digits
  match (unsigned.drop digits.length).dropWhile isSpace with
  | ']' :: rest => if Numeral.isNumeral digits && Numeral.isSignedWord value then some (value, rest) else none
  | _ => none

/-- The steps after the first: a key after a point, or a position in brackets. -/
def laterParts? : (bound : Nat) → List Char → Option (List Part)
  | _, [] => some []
  | bound + 1, '.' :: rest => do
    let (key, rest) ← plainKey? rest
    return .entry key :: (← laterParts? bound rest)
  | bound + 1, '[' :: rest => do
    let (position, rest) ← position? rest
    return .element position :: (← laterParts? bound rest)
  | _, _ => none

/-- The place that a key stands for. A key that names no place is one entry as it is. -/
def place (key : String) : List Part :=
  let parts : Option (List Part) := do
    let (first, rest) ← plainKey? key.toList
    return .entry first :: (← laterParts? rest.length rest)
  parts.getD [.entry key]

/-- The position in a list of some length, which may lie after its end but not before its start. -/
def index? (length : Nat) (position : Int) : Option Nat :=
  if 0 ≤ position then some position.toNat
  else if position.natAbs ≤ length then some (length - position.natAbs)
  else none

/-- The list with an element changed, made longer if need be. -/
def setElement (index : Nat) (element : Setting) (elements : List Setting) : List Setting :=
  if index < elements.length then elements.set index element
  else elements ++ List.replicate (index - elements.length) null ++ [element]

/-- Lays a value over a place. What stands on the way becomes a table or a list, as the place asks. -/
def assignAt? (value : Setting) : List Part → Setting → Option Setting
  | [], under => some under
  | [.entry key], under => some (assign key value under)
  | .entry key :: next :: rest, under => do
    let inner ← assignAt? value (next :: rest) ((under.entries.lookup key.toLower).getD null)
    return table (Entries.put key.toLower inner under.entries)
  | .element position :: rest, under => do
    let index ← index? under.elements.length position
    let inner ← if rest.isEmpty then some value else assignAt? value rest (under.elements[index]?.getD null)
    return list (setElement index inner under.elements)

/-- All entries of a source laid over what is known; only here a key may name a place deep inside. -/
def layOver? (source : Entries Setting) (known : Setting) : Option Setting :=
  source.foldlM (fun under (key, value) => assignAt? value (place key) under) known

def text? : Setting → Option String
  | text value => some value
  | bool value => some (if value then "true" else "false")
  | int value => some value.repr
  | float value => some (Decimal.Layout.plain.text value)
  | _ => none

def bool? : Setting → Option Bool
  | bool value => some value
  | int value => some (value ≠ 0)
  | float value => some (value != 0.0)
  | text value =>
    let word := value.toLower
    if ["1", "true", "on", "yes"].contains word then some true
    else if ["0", "false", "off", "no"].contains word then some false
    else none
  | _ => none

/-- A format is given by its word, or by a table that has this word as its only key. -/
def format? : Setting → Option OutputFormat
  | text value => OutputFormat.ofWord? value.toLower
  | table [(key, _)] => OutputFormat.ofWord? key.toLower
  | _ => none

/-- The parts of a section by name; a list gives them in order. -/
def section? (names : List String) : Setting → Option (Entries Setting)
  | table entries => some entries
  | list elements => some (names.zip elements)
  | _ => none

/-- What `read?` makes of an entry, or the fallback when there is none. -/
def readOr {α : Type} (read? : Setting → Option α) (fallback : α) (name : String) (entries : Entries Setting) : Option α :=
  match entries.lookup name with
  | none => some fallback
  | some value => read? value

mutual
def ofJson : Json → Setting
  | .null => null
  | .bool value => bool value
  | .num (.int value) => if Numeral.isSignedWord value then int value else float (Float.ofInt value)
  | .num (.float value) => float value
  | .str value => text value
  | .arr elements => list (ofElements elements)
  | .obj members => table (ofMembers members)

def ofElements : List Json → List Setting
  | [] => []
  | element :: rest => ofJson element :: ofElements rest

def ofMembers : List (String × Json) → List (String × Setting)
  | [] => []
  | (key, value) :: rest => (key, ofJson value) :: ofMembers rest
end

end Setting

namespace Settings

/-- The settings that a table gives; what it leaves out is standard, and what it has beyond them is skipped. -/
def ofSetting? (setting : Setting) : Option Settings := do
  let entries := setting.entries
  let part (name : String) (keys : List String) := Setting.readOr (Setting.section? keys) [] name entries
  let schema ← part "schema" ["path", "root", "strict"]
  let advisor ← part "advisor" ["sample_suffix"]
  let output ← part "output" ["format"]
  return {
    path := ← schema |> Setting.readOr Setting.text? standard.path "path"
    root := ← schema |> Setting.readOr Setting.text? standard.root "root"
    strict := ← schema |> Setting.readOr Setting.bool? standard.strict "strict"
    suffix := ← advisor |> Setting.readOr Setting.text? standard.suffix "sample_suffix"
    format := ← output |> Setting.readOr Setting.format? standard.format "format" }

end Settings

end SchemaGuide
