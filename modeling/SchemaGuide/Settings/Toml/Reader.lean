import SchemaGuide.Settings.Toml.Moment
import SchemaGuide.Settings.Toml.Table
import SchemaGuide.Settings.Toml.Text

/-!
TOML read line by line: headers of tables, and keys with values. A value is a string, a number, a boolean, a moment,
an array that may run over several lines, or an inline table. Keys have fewer than eighty parts, and as many arrays and
inline tables may be inside one another.
-/

namespace SchemaGuide.Toml

def isBareKey (c : Char) : Bool := c.isAlphanum || c = '_' || c = '-'

def skipSpaces (text : List Char) : List Char := text.dropWhile fun c => c = ' ' || c = '\t'

/-- What follows a comment, from the line break on; a comment holds no control characters. -/
def skipComment? : List Char → Option (List Char)
  | '#' :: rest =>
    let body := rest.takeWhile (· ≠ '\n')
    let body := if body.getLast? = some '\r' then body.dropLast else body
    if body.any isControl then none else some (rest.drop body.length)
  | rest => some rest

/-- Goes on to the next line; only spaces and a comment may be left on this one. -/
def nextLine? (text : List Char) : Option (List Char) := do
  match ← skipComment? (skipSpaces text) with
  | [] => some []
  | '\n' :: rest => some rest
  | '\r' :: '\n' :: rest => some rest
  | _ => none

def skipLines? : (bound : Nat) → List Char → Option (List Char)
  | 0, _ => none
  | bound + 1, text => do
    match ← skipComment? (skipSpaces text) with
    | '\n' :: rest => skipLines? bound rest
    | '\r' :: '\n' :: rest => skipLines? bound rest
    | rest => some rest

def keyPart? (text : List Char) : Option (String × List Char) :=
  match line? text with
  | some (part, rest) => some (String.ofList part, rest)
  | none =>
    let bare := text.takeWhile isBareKey
    if bare.isEmpty then none else some (String.ofList bare, text.drop bare.length)

def keyParts? : (bound : Nat) → List Char → Option (List String × List Char)
  | 0, _ => none
  | bound + 1, text => do
    let (part, rest) ← keyPart? (skipSpaces text)
    match skipSpaces rest with
    | '.' :: rest => do
      let (parts, rest) ← keyParts? bound rest
      some (part :: parts, rest)
    | rest => some ([part], rest)

/-- Keys have no more parts, and values no more arrays and tables inside one another. -/
def greatestDepth : Nat := 79

def key? (text : List Char) : Option (List String × List Char) := do
  let (parts, rest) ← keyParts? (text.length + 1) text
  if parts.length ≤ greatestDepth then some (parts, rest) else none

/-- Digits with single underscores between them; the result is without underscores. -/
def digits? (accepts : Char → Bool) (text : List Char) : Option (List Char) :=
  let groups := Text.pieces (· = '_') text
  if groups.all fun group => !group.isEmpty && group.all accepts then some groups.flatten else none

def decimal? (text : List Char) : Option (List Char) := do
  let digits ← digits? Char.isDigit text
  if digits.head? = some '0' && 1 < digits.length then none else some digits

def inBase? (base : Nat) (text : List Char) : Option Nat := do
  Numeral.inBase? base (← digits? (fun c => (Numeral.digit? base c).isSome) text)

def int? (text : List Char) : Option Int := do
  let value : Int ← match text with
    | '0' :: 'x' :: rest => (inBase? 16 rest).map Int.ofNat
    | '0' :: 'o' :: rest => (inBase? 8 rest).map Int.ofNat
    | '0' :: 'b' :: rest => (inBase? 2 rest).map Int.ofNat
    | _ => do
      let (negative, unsigned) := Decimal.Reading.signed text
      let magnitude := Numeral.value (← decimal? unsigned)
      some (if negative then -magnitude else magnitude)
  if Numeral.isSignedWord value then some value else none

/-- The exponent of a number, its mark included, without underscores. -/
def exponent? : List Char → Option (List Char)
  | [] => some []
  | mark :: rest => do
    if mark ≠ 'e' && mark ≠ 'E' then none
    let (negative, unsigned) := Decimal.Reading.signed rest
    let digits ← digits? Char.isDigit unsigned
    some ('e' :: (if negative then '-' :: digits else digits))

/-- A number with a point, an exponent or both, or a word for infinity or for no number. A number above every double
is refused, and one below them all is minus infinity. -/
def float? (text : List Char) : Option Float := do
  let (negative, unsigned) := Decimal.Reading.signed text
  if unsigned = "inf".toList || unsigned = "nan".toList then Decimal.Reading.float? text
  else do
    let isMark (c : Char) := c = 'e' || c = 'E'
    let mantissa := unsigned.takeWhile (!isMark ·)
    let exponent ← exponent? (unsigned.dropWhile (!isMark ·))
    let whole ← decimal? (mantissa.takeWhile (· ≠ '.'))
    let decimals ← match mantissa.dropWhile (· ≠ '.') with
      | [] => some []
      | _ :: rest => (digits? Char.isDigit rest).map ('.' :: ·)
    if decimals.isEmpty && exponent.isEmpty then none
    else
      let x ← Decimal.Reading.float? (whole ++ decimals ++ exponent)
      if negative then some (-x) else if x.isInf then none else some x

def word? (text : List Char) : Option Setting :=
  if text = "true".toList then some (.bool true)
  else if text = "false".toList then some (.bool false)
  else ((int? text).map .int).or ((float? text).map .float)

def isWord (c : Char) : Bool := isBareKey c || c = '+' || c = '.'

/-- The first key of a table that stands for a moment, whatever else the table holds. -/
def momentKey : String := "$__toml_private_datetime"

def momentTable (moment : Moment) : Setting := .table [(momentKey, .text moment.text)]

mutual
/-- The setting with the normal form of every moment in place of its table. -/
def settled? : Setting → Option Setting
  | .table ((key, value) :: rest) =>
    if key = momentKey then
      match value with
      | .text text => (Moment.ofText? text).map fun moment => .text moment.text
      | _ => none
    else do
      let value ← settled? value
      some (.table ((key, value) :: (← settledEntries? rest)))
  | .list elements => (settledElements? elements).map .list
  | setting => some setting

def settledEntries? : List (String × Setting) → Option (List (String × Setting))
  | [] => some []
  | (key, value) :: rest => do
    let value ← settled? value
    some ((key, value) :: (← settledEntries? rest))

def settledElements? : List Setting → Option (List Setting)
  | [] => some []
  | element :: rest => do
    let element ← settled? element
    some (element :: (← settledElements? rest))
end

mutual
/-- A value at the start of a text; `room` is how many arrays and tables may still be opened inside one another. -/
def value? : (bound room : Nat) → List Char → Option (Setting × List Char)
  | 0, _, _ => none
  | _ + 1, 0, '[' :: _ => none
  | bound + 1, room + 1, '[' :: rest => do
    let (elements, rest) ← elements? bound room rest
    some (.list elements, rest)
  | _ + 1, 0, '\x7b' :: _ => none
  | bound + 1, room + 1, '\x7b' :: rest =>
    match skipSpaces rest with
    | '\x7d' :: rest => some (.table [], rest)
    | rest => do
      let (entries, rest) ← inline? bound room [] rest
      some (.table (Item.settings entries), rest)
  | _ + 1, _, text =>
    match string? text, Moment.read? .strict text with
    | some (value, rest), _ => some (.text (String.ofList value), rest)
    | none, some (moment, rest) => some (momentTable moment, rest)
    | none, none => (word? (text.takeWhile isWord)).map (·, text.dropWhile isWord)

/-- The elements of an array after its opening bracket; a comma may follow the last. -/
def elements? : (bound room : Nat) → List Char → Option (List Setting × List Char)
  | 0, _, _ => none
  | bound + 1, room, text => do
    match ← skipLines? (text.length + 1) text with
    | ']' :: rest => some ([], rest)
    | rest =>
      let (element, rest) ← value? bound room rest
      match ← skipLines? (rest.length + 1) rest with
      | ',' :: rest =>
        let (others, rest) ← elements? bound room rest
        some (element :: others, rest)
      | ']' :: rest => some ([element], rest)
      | _ => none

/-- The entries of an inline table, at least one, up to its closing brace. -/
def inline? : (bound room : Nat) → Entries Item → List Char → Option (Entries Item × List Char)
  | 0, _, _, _ => none
  | bound + 1, room, known, text => do
    let (key, rest) ← key? text
    match rest with
    | '=' :: rest =>
      let (value, rest) ← value? bound room (skipSpaces rest)
      let known ← Item.set? [] key value known
      match skipSpaces rest with
      | ',' :: rest => inline? bound room known rest
      | '\x7d' :: rest => some (known, rest)
      | _ => none
    | _ => none
end

/-- A header or a key with its value, at the start of a line. What is known is the header above and all entries. -/
def statement? (header : List String) (root : Entries Item) (text : List Char) :
    Option (List String × Entries Item × List Char) :=
  match text with
  | '[' :: '[' :: rest => do
    let (key, rest) ← key? rest
    match rest with
    | ']' :: ']' :: rest => some (key, ← Item.openElement? key root, rest)
    | _ => none
  | '[' :: rest => do
    let (key, rest) ← key? rest
    match rest with
    | ']' :: rest => some (key, ← Item.openTable? key root, rest)
    | _ => none
  | text => do
    let (key, rest) ← key? text
    match rest with
    | '=' :: rest =>
      let (value, rest) ← value? (rest.length + 1) greatestDepth (skipSpaces rest)
      some (header, ← Item.set? header key value root, rest)
    | _ => none

def statements? : (bound : Nat) → List String → Entries Item → List Char → Option (Entries Item)
  | 0, _, _, _ => none
  | bound + 1, header, root, text => do
    match ← skipLines? (text.length + 1) text with
    | [] => some root
    | text =>
      let (header, root, rest) ← statement? header root text
      statements? bound header root (← nextLine? rest)

/-- The table that a text writes; a byte order mark in front is no part of it. -/
def parse? (text : String) : Option (Entries Setting) :=
  let characters := Text.unmarked text.toList
  (statements? (characters.length + 1) [] [] characters).bind fun entries =>
    match settled? (.table (Item.settings entries)) with
    | some (.table settled) => some settled
    | _ => none

end SchemaGuide.Toml
