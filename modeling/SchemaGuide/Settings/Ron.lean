import SchemaGuide.Decimal.Reading
import SchemaGuide.Settings.Setting
import SchemaGuide.Text.Radix

/-!
RON: objects with named fields in round brackets, maps in braces and lists in square ones, each perhaps under a name,
which says nothing about the value. A name alone and an empty pair of brackets are null. At most 128 brackets stand
inside one another.
-/

namespace SchemaGuide.Ron

def isSpace (c : Char) : Bool := c = ' ' || c = '\t' || c = '\n' || c = '\r'

/-- What follows a comment of so many levels, if it ends. -/
def afterComment? : (bound levels : Nat) → List Char → Option (List Char)
  | _, 0, rest => some rest
  | 0, _, _ => none
  | bound + 1, levels + 1, '/' :: '*' :: rest => afterComment? bound (levels + 2) rest
  | bound + 1, levels + 1, '*' :: '/' :: rest => afterComment? bound levels rest
  | bound + 1, levels + 1, _ :: rest => afterComment? bound (levels + 1) rest
  | _ + 1, _ + 1, [] => none

def skip? : (bound : Nat) → List Char → Option (List Char)
  | 0, _ => none
  | bound + 1, '/' :: '/' :: rest => skip? bound (rest.dropWhile (· ≠ '\n'))
  | bound + 1, '/' :: '*' :: rest => (afterComment? (rest.length + 1) 1 rest).bind (skip? bound)
  | bound + 1, c :: rest => if isSpace c then skip? bound rest else some (c :: rest)
  | _, [] => some []

def token? (text : List Char) : Option (List Char) := skip? (text.length + 1) text

def isNameCharacter (c : Char) : Bool := c.isAlphanum || c = '_'

/-- Names that are marked as such may hold these as well. -/
def isMarkedCharacter (c : Char) : Bool := isNameCharacter c || c = '.' || c = '+' || c = '-'

/-- A name at the start of a text; the mark of a string without escapes begins none. -/
def name? (text : List Char) : Option (List Char × List Char) :=
  match text with
  | 'r' :: '\"' :: _ => none
  | 'r' :: '#' :: rest =>
    let name := rest.takeWhile isMarkedCharacter
    if name.isEmpty then none else some (name, rest.drop name.length)
  | c :: _ =>
    let name := text.takeWhile isNameCharacter
    let rest := text.drop name.length
    if (c.isAlpha || c = '_') && !(rest.head?.any isMarkedCharacter) then some (name, rest) else none
  | [] => none

def word? (word : String) (text : List Char) : Option (List Char) :=
  let rest := text.drop word.length
  if word.toList.isPrefixOf text && !(rest.head?.any isNameCharacter) then some rest else none

def ofEscape? : Char → Option Char
  | '\'' => some '\''
  | '\"' => some '\"'
  | '\\' => some '\\'
  | 'n' => some '\n'
  | 'r' => some '\r'
  | 't' => some '\t'
  | '0' => some '\x00'
  | _ => none

def escape? : List Char → Option (Char × List Char)
  | [] => none
  | 'x' :: rest => Numeral.escaped? 2 rest
  | 'u' :: '\x7b' :: rest =>
    let digits := (rest.take 6).takeWhile (· ≠ '\x7d')
    match rest.drop digits.length with
    | '\x7d' :: rest => (Numeral.character? digits).map (·, rest)
    | _ => none
  | c :: rest => (ofEscape? c).map (·, rest)

def quoted? : (bound : Nat) → List Char → Option (List Char × List Char)
  | 0, _ => none
  | _, [] => none
  | _ + 1, '\"' :: rest => some ([], rest)
  | bound + 1, c :: rest => do
    let (c, rest) ← if c = '\\' then escape? rest else some (c, rest)
    let (text, rest) ← quoted? bound rest
    some (c :: text, rest)

def raw? (closing : List Char) : List Char → Option (List Char × List Char)
  | [] => none
  | c :: rest =>
    if closing.isPrefixOf (c :: rest) then some ([], (c :: rest).drop closing.length)
    else (raw? closing rest).map fun (text, rest) => (c :: text, rest)

def text? : List Char → Option (List Char × List Char)
  | '\"' :: rest => quoted? (rest.length + 1) rest
  | 'r' :: rest =>
    let hashes := rest.takeWhile (· = '#')
    match rest.drop hashes.length with
    | '\"' :: rest => raw? ('\"' :: hashes) rest
    | _ => none
  | '\'' :: '\\' :: rest =>
    match escape? rest with
    | some (c, '\'' :: rest) => some ([c], rest)
    | _ => none
  | '\'' :: c :: '\'' :: rest => if c = '\'' then none else some ([c], rest)
  | _ => none

/-- The value of a numeral in a base, with underscores after the first digit. -/
def inBase? (base : Nat) (text : List Char) : Option Nat :=
  if text.head? = some '_' then none else Numeral.inBase? base (text.filter (· ≠ '_'))

def magnitude? : List Char → Option Nat
  | '0' :: 'x' :: digits => inBase? 16 digits
  | '0' :: 'b' :: digits => inBase? 2 digits
  | '0' :: 'o' :: digits => inBase? 8 digits
  | digits => inBase? 10 digits

def isNumberCharacter (c : Char) : Bool := isMarkedCharacter c

/-- Whether no letters but the mark of an exponent stand in a number. -/
def isScientific (unsigned : List Char) : Bool := unsigned.all fun c => !c.isAlpha || c = 'e' || c = 'E'

/-- A number. What is no whole number, or does not fit a signed word, is a double. -/
def number? (text : List Char) : Option Setting :=
  let (negative, unsigned) := Decimal.Reading.signed text
  let whole := (magnitude? unsigned).map fun size => if negative then -(Int.ofNat size) else Int.ofNat size
  match whole.filter Numeral.isSignedWord with
  | some value => some (.int value)
  | none =>
    if unsigned = "inf".toList || unsigned = "NaN".toList || isScientific unsigned then
      (Decimal.Reading.float? text).map .float
    else none

/-- Whether fields with names follow an opening bracket. -/
def hasFields (text : List Char) : Bool :=
  match name? text with
  | none => false
  | some (_, rest) => ((token? rest).bind List.head?) = some ':'

/-- The room that is left after one more bracket. -/
def narrower? : Nat → Option Nat
  | 0 => none
  | room + 1 => some room

def key? (closing : Char) (text : List Char) : Option (List Char × List Char) :=
  if closing = ')' then name? text else text? text

mutual
/-- A value at the start of a text; `room` is how many brackets may still be opened inside one another. -/
def value? : (bound room : Nat) → List Char → Option (Setting × List Char)
  | 0, _, _ => none
  | bound + 1, room, text =>
    match word? "true" text, word? "false" text, word? "Some" text, word? "None" text with
    | some rest, _, _, _ => some (.bool true, rest)
    | none, some rest, _, _ => some (.bool false, rest)
    | none, none, some rest, _ => option? bound room rest
    | none, none, none, some rest => some (.null, rest)
    | none, none, none, none =>
      match number? (text.takeWhile isNumberCharacter), name? text, text with
      | some value, _, _ => some (value, text.dropWhile isNumberCharacter)
      | none, _, '(' :: ')' :: rest => some (.null, rest)
      | none, some (_, rest), _ => do
        let rest ← token? rest
        match rest with
        | '(' :: rest => round? bound room rest
        | rest => some (.null, rest)
      | none, none, '(' :: rest => round? bound room rest
      | none, none, '[' :: rest => do
        let room ← narrower? room
        let (elements, rest) ← elements? ']' bound room (← token? rest)
        some (.list elements, rest)
      | none, none, '\x7b' :: rest => do
        let room ← narrower? room
        let (entries, rest) ← entries? '\x7d' bound room [] (← token? rest)
        some (.table entries, rest)
      | none, none, text => (text? text).map fun (value, rest) => (.text (String.ofList value), rest)
termination_by structural bound => bound

def option? : (bound room : Nat) → List Char → Option (Setting × List Char)
  | 0, _, _ => none
  | bound + 1, room, text => do
    match ← token? text, ← narrower? room with
    | '(' :: rest, room =>
      let (value, rest) ← value? bound room (← token? rest)
      let rest ← token? rest
      match ← token? (if rest.head? = some ',' then rest.drop 1 else rest) with
      | ')' :: rest => some (value, rest)
      | _ => none
    | _, _ => none
termination_by structural bound => bound

def round? : (bound room : Nat) → List Char → Option (Setting × List Char)
  | 0, _, _ => none
  | bound + 1, room, text => do
    let room ← narrower? room
    let text ← token? text
    if hasFields text then
      let (entries, rest) ← entries? ')' bound room [] text
      some (.table entries, rest)
    else
      let (elements, rest) ← elements? ')' bound room text
      some (.list elements, rest)
termination_by structural bound => bound

/-- Elements up to a closing bracket; a comma may follow the last. -/
def elements? (closing : Char) : (bound room : Nat) → List Char → Option (List Setting × List Char)
  | 0, _, _ => none
  | bound + 1, room, text =>
    if text.head? = some closing then some ([], text.drop 1)
    else do
      let (element, rest) ← value? bound room text
      match ← token? rest with
      | ',' :: rest =>
        let (others, rest) ← elements? closing bound room (← token? rest)
        some (element :: others, rest)
      | c :: rest => if c = closing then some ([element], rest) else none
      | [] => none
termination_by structural bound => bound

def entries? (closing : Char) : (bound room : Nat) → Entries Setting → List Char →
    Option (Entries Setting × List Char)
  | 0, _, _, _ => none
  | bound + 1, room, known, text =>
    if text.head? = some closing then some (known, text.drop 1)
    else do
      let (key, rest) ← key? closing text
      match ← token? rest with
      | ':' :: rest =>
        let (value, rest) ← value? bound room (← token? rest)
        let known := Entries.put (String.ofList key) value known
        match ← token? rest with
        | ',' :: rest => entries? closing bound room known (← token? rest)
        | c :: rest => if c = closing then some (known, rest) else none
        | [] => none
      | _ => none
termination_by structural bound => bound
end

/-- How many brackets may stand inside one another. -/
def greatestDepth : Nat := 128

def features : List String := ["unwrap_newtypes", "implicit_some", "unwrap_variant_newtypes"]

def features? : (bound : Nat) → List Char → Option (List Char)
  | 0, _ => none
  | bound + 1, text => do
    let (name, rest) ← name? text
    if !features.contains (String.ofList name) then none
    match ← token? rest with
    | ',' :: rest =>
      match ← token? rest with
      | ')' :: rest => some rest
      | rest => features? bound rest
    | ')' :: rest => some rest
    | _ => none

def signs? : List String → List Char → Option (List Char)
  | [], text => some text
  | sign :: others, text => do
    let text ← token? text
    if sign.toList.isPrefixOf text then signs? others (text.drop sign.length) else none

def skipFeatures? : (bound : Nat) → List Char → Option (List Char)
  | 0, _ => none
  | bound + 1, text => do
    let text ← token? text
    if text.head? = some '#' then
      let rest ← features? text.length (← token? (← signs? ["#", "!", "[", "enable", "("] text))
      skipFeatures? bound (← signs? ["]"] rest)
    else some text

def parse? (text : String) : Option (Entries Setting) := do
  let text ← skipFeatures? (text.length + 1) text.toList
  match ← value? (3 * text.length + 3) greatestDepth text with
  | (.table entries, rest) => if (← token? rest).isEmpty then some entries else none
  | _ => none

end SchemaGuide.Ron
