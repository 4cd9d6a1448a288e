import SchemaGuide.Decimal.Reading
import SchemaGuide.Json.Token
import SchemaGuide.Settings.Setting
import SchemaGuide.Text.Blank
import SchemaGuide.Text.Letter

/-!
JSON5: JSON with comments, commas at the end of lists and objects, strings in either quotes, keys without quotes, and
more forms of numbers. An object with a repeated key keeps the last value.
-/

namespace SchemaGuide.Json5

def isLineBreak (c : Char) : Bool := c = '\n' || c = '\r' || c = '\u2028' || c = '\u2029'

/-- White space of Unicode, without the control character of the next line but with the byte order mark. -/
def isSpace (c : Char) : Bool := (Text.isBlank c && c ≠ '\u0085') || c = '\uFEFF'

def afterComment? : List Char → Option (List Char)
  | '*' :: '/' :: rest => some rest
  | _ :: rest => afterComment? rest
  | [] => none

def skip? : (bound : Nat) → List Char → Option (List Char)
  | 0, _ => none
  | bound + 1, '/' :: '/' :: rest => skip? bound (rest.dropWhile (!isLineBreak ·))
  | bound + 1, '/' :: '*' :: rest => (afterComment? rest).bind (skip? bound)
  | bound + 1, c :: rest => if isSpace c then skip? bound rest else some (c :: rest)
  | _, [] => some []

def token? (text : List Char) : Option (List Char) := skip? (text.length + 1) text

def ofEscape : Char → Char
  | 'b' => '\x08'
  | 'f' => '\x0c'
  | 'n' => '\n'
  | 'r' => '\r'
  | 't' => '\t'
  | 'v' => '\x0b'
  | c => c

/-- What an escape stands for, given what follows its backslash; a line break stands for nothing. -/
def escape? : List Char → Option (List Json.Piece × List Char)
  | [] => none
  | '0' :: rest => some ([.char '\x00'], rest)
  | 'x' :: rest => (Numeral.escaped? 2 rest).map fun (c, rest) => ([.char c], rest)
  | 'u' :: rest => (Numeral.code? 4 rest).map fun (code, rest) => ([.unit code], rest)
  | '\r' :: '\n' :: rest => some ([], rest)
  | c :: rest =>
    if isLineBreak c then some ([], rest)
    else if c.isDigit then none
    else some ([.char (ofEscape c)], rest)

def pieces? (quote : Char) : (bound : Nat) → List Char → Option (List Json.Piece × List Char)
  | 0, _ => none
  | _, [] => none
  | bound + 1, c :: rest =>
    if c = quote then some ([], rest)
    else if isLineBreak c then none
    else do
      let (front, rest) ← if c = '\\' then escape? rest else some ([.char c], rest)
      let (pieces, rest) ← pieces? quote bound rest
      some (front ++ pieces, rest)

def joined? (pieces : List Json.Piece) : Option String := (Json.Piece.text? pieces).map String.ofList

def string? : List Char → Option (String × List Char)
  | [] => none
  | quote :: rest => do
    if quote ≠ '\"' && quote ≠ '\'' then none
    let (pieces, rest) ← pieces? quote (rest.length + 1) rest
    some (← joined? pieces, rest)

/-- The pieces of a key without quotes; a character in it may be escaped by number. -/
def namePieces : (bound : Nat) → (first : Bool) → List Char → List Json.Piece × List Char
  | 0, _, text => ([], text)
  | _, _, [] => ([], [])
  | bound + 1, first, c :: rest =>
    if Text.isLetter c || c = '$' || c = '_' || (!first && Text.isJoined c) then
      let (pieces, rest) := namePieces bound false rest
      (.char c :: pieces, rest)
    else
      match c, rest with
      | '\\', 'u' :: more =>
        match Numeral.code? 4 more with
        | none => ([], c :: rest)
        | some (code, more) =>
          let (pieces, rest) := namePieces bound false more
          (.unit code :: pieces, rest)
      | _, _ => ([], c :: rest)

def key? (text : List Char) : Option (String × List Char) :=
  (string? text).or <|
    match namePieces (text.length + 1) true text with
    | ([], _) => none
    | (pieces, rest) => (joined? pieces).map (·, rest)

def isNumberCharacter (c : Char) : Bool := c.isAlphanum || c = '+' || c = '-' || c = '.'

/-- Whether a text is a number without its sign: digits without a leading zero around an optional point, and an optional
exponent. -/
def isDecimal (text : List Char) : Bool :=
  let whole := text.takeWhile Char.isDigit
  (whole.length < 2 || whole.head? ≠ some '0') && (Decimal.Reading.decimal? text).isSome

/-- A number in base ten. Without point and exponent it is a whole number, which must fit a signed word; a double must be
finite. -/
def decimal? (text : List Char) : Option Setting :=
  let unsigned := (Decimal.Reading.signed text).2
  if !isDecimal unsigned then none
  else if unsigned.all Char.isDigit then (Decimal.Reading.int? text).map .int
  else ((Decimal.Reading.float? text).filter Float.isFinite).map .float

/-- A number. One in base sixteen has no sign and fits half a word; the words for infinity and for no number have no plus
sign. -/
def number? (text : List Char) : Option Setting :=
  let (negative, unsigned) := Decimal.Reading.signed text
  let signed (x : Float) := if negative then -x else x
  match text with
  | '0' :: mark :: digits =>
    if mark = 'x' || mark = 'X' then
      ((Numeral.inBase? 16 digits).filter (· ≤ 0xffffffff)).map fun value => .int value
    else decimal? text
  | '+' :: _ => decimal? text
  | _ =>
    if unsigned = "Infinity".toList then some (.float (signed (1.0 / 0.0)))
    else if unsigned = "NaN".toList then some (.float (0.0 / 0.0))
    else decimal? text

def word? (word : List Char) : Option Setting :=
  if word = "null".toList then some .null
  else if word = "true".toList then some (.bool true)
  else if word = "false".toList then some (.bool false)
  else number? word

mutual
def value? : (bound : Nat) → List Char → Option (Setting × List Char)
  | 0, _ => none
  | bound + 1, '[' :: rest => do
    let (elements, rest) ← elements? bound (← token? rest)
    some (.list elements, rest)
  | bound + 1, '\x7b' :: rest => do
    let (entries, rest) ← members? bound [] (← token? rest)
    some (.table entries, rest)
  | _ + 1, text =>
    match string? text with
    | some (value, rest) => some (.text value, rest)
    | none => (word? (text.takeWhile isNumberCharacter)).map (·, text.dropWhile isNumberCharacter)

def elements? : (bound : Nat) → List Char → Option (List Setting × List Char)
  | 0, _ => none
  | _ + 1, ']' :: rest => some ([], rest)
  | bound + 1, text => do
    let (element, rest) ← value? bound text
    match ← token? rest with
    | ',' :: rest =>
      let (others, rest) ← elements? bound (← token? rest)
      some (element :: others, rest)
    | ']' :: rest => some ([element], rest)
    | _ => none

def members? : (bound : Nat) → Entries Setting → List Char → Option (Entries Setting × List Char)
  | 0, _, _ => none
  | _ + 1, known, '\x7d' :: rest => some (known, rest)
  | bound + 1, known, text => do
    let (key, rest) ← key? text
    match ← token? rest with
    | ':' :: rest =>
      let (value, rest) ← value? bound (← token? rest)
      let known := Entries.put key value known
      match ← token? rest with
      | ',' :: rest => members? bound known (← token? rest)
      | '\x7d' :: rest => some (known, rest)
      | _ => none
    | _ => none
end

def parse? (text : String) : Option (Entries Setting) := do
  let text ← token? text.toList
  match ← value? (text.length + 1) text with
  | (.table entries, rest) => if (← token? rest).isEmpty then some entries else none
  | _ => none

end SchemaGuide.Json5
