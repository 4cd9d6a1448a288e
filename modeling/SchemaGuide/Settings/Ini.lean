import SchemaGuide.Settings.Setting
import SchemaGuide.Text.Blank
import SchemaGuide.Text.Radix

/-!
INI files: keys with values, in sections or before the first one. Every value is a text, in quotes or up to the end of
its line; names and keys may run over lines. A section that comes again takes the place of the earlier one.
-/

namespace SchemaGuide.Ini

/-- What an escape stands for, given what follows its backslash; a line break stands for nothing. The code of a
character has four places, of which the first may be a plus sign. -/
def escape? : List Char → Option (List Char × List Char)
  | [] => none
  | '0' :: rest => some (['\x00'], rest)
  | 'a' :: rest => some (['\x07'], rest)
  | 'b' :: rest => some (['\x08'], rest)
  | 't' :: rest => some (['\t'], rest)
  | 'r' :: rest => some (['\r'], rest)
  | 'n' :: rest => some (['\n'], rest)
  | '\n' :: rest => some ([], rest)
  | 'x' :: rest =>
    if rest.length < 4 then none
    else (Numeral.character? (Numeral.unsigned (rest.take 4))).map fun c => ([c], rest.drop 4)
  | c :: rest => some ([c], rest)

/-- The text up to a character that ends it, which stays in the rest; `mayEnd` says whether the end of the file ends it
as well. -/
def until? (ends : Char → Bool) (mayEnd : Bool) : (bound : Nat) → List Char → Option (List Char × List Char)
  | 0, _ => none
  | _ + 1, [] => if mayEnd then some ([], []) else none
  | bound + 1, c :: rest =>
    if ends c then some ([], c :: rest)
    else do
      let (front, rest) ← if c = '\\' then escape? rest else some ([c], rest)
      let (text, rest) ← until? ends mayEnd bound rest
      some (front ++ text, rest)

def upTo? (ends : Char → Bool) (text : List Char) : Option (List Char × List Char) :=
  until? ends false (text.length + 1) text

def isLineBreak (c : Char) : Bool := c = '\n' || c = '\r'

/-- The end of a value: the rest of its line. Blanks around it are dropped, those in front only if it is all of the
value. -/
def lineEnd? (whole : Bool) (text : List Char) : Option (List Char × List Char) := do
  let (line, rest) ← until? isLineBreak true (text.length + 1) text
  let line := if whole then line.dropWhile Text.isBlank else line
  some ((line.reverse.dropWhile Text.isBlank).reverse, rest)

/-- A value after the blanks in front of it: pieces in quotes, as many as there are, and the rest of the line. -/
def value? (whole : Bool) : (bound : Nat) → List Char → Option (List Char × List Char)
  | 0, _ => none
  | bound + 1, text =>
    let quoted (quote : Char) (rest : List Char) := do
      let (piece, rest) ← upTo? (· = quote) rest
      let (others, rest) ← value? false bound (rest.drop 1)
      some (piece ++ others, rest)
    match text with
    | '\"' :: rest => quoted '\"' rest
    | '\'' :: rest => quoted '\'' rest
    | text => lineEnd? whole text

structure Draft where
  entries : Entries Setting
  current : Option String
  /-- The key whose value is due; empty if there is none. -/
  key : List Char

def Draft.add (draft : Draft) (value : List Char) : Draft :=
  let key := String.ofList draft.key
  let value := Setting.text (String.ofList value)
  let entries := match draft.current with
    | none => Entries.put key value draft.entries
    | some name =>
      let known := ((draft.entries.lookup name).map Setting.entries).getD []
      Entries.put name (.table (Entries.put key value known)) draft.entries
  { draft with entries, key := [] }

def Draft.begin (draft : Draft) (name : List Char) : Draft :=
  let name := String.ofList name
  { draft with entries := Entries.put name (.table []) draft.entries, current := some name }

/-- Reads on to the end of a file; `fresh` says whether a comment may stand here, which takes a line of its own. -/
def statements? : (bound : Nat) → (fresh : Bool) → Draft → List Char → Option (Entries Setting)
  | 0, _, _, _ => none
  | _ + 1, _, draft, [] => some draft.entries
  | bound + 1, fresh, draft, c :: rest =>
    if Text.isBlank c then statements? bound (c = '\n') draft rest
    else if c = ';' || c = '#' then
      if fresh then statements? bound true draft ((rest.dropWhile (· ≠ '\n')).drop 1) else none
    else if c = '[' then do
      let (name, rest) ← upTo? (· = ']') rest
      statements? bound false (draft.begin (Text.trim name)) (rest.drop 1)
    else if c = '=' || c = ':' then
      if draft.key.isEmpty then none
      else do
        let (value, rest) ← value? true (rest.length + 1) (rest.dropWhile fun c => Text.isBlank c && !isLineBreak c)
        statements? bound false (draft.add value) rest
    else do
      let (key, rest) ← upTo? (fun c => c = '=' || c = ':') (c :: rest)
      statements? bound false { draft with key := Text.trim key } rest

def parse? (text : String) : Option (Entries Setting) :=
  statements? (text.length + 1) true ⟨[], none, []⟩ text.toList

end SchemaGuide.Ini
