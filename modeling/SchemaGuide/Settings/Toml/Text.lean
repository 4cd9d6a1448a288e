import SchemaGuide.Text.Radix

/-!
Strings of TOML, read and written. Basic strings know escapes and literal ones do not; three quotes open a string of
several lines, of which a line break right after the quotes is no part. A string is written with the plainest quotes
that need no escapes.
-/

namespace SchemaGuide.Toml

/-- Control characters that no text may hold as they are. -/
def isControl (c : Char) : Bool := (c.toNat < 0x20 && c ≠ '\t') || c.toNat = 0x7f

def ofEscape? : Char → Option Char
  | 'b' => some '\x08'
  | 't' => some '\t'
  | 'n' => some '\n'
  | 'f' => some '\x0c'
  | 'r' => some '\r'
  | '\"' => some '\"'
  | '\\' => some '\\'
  | _ => none

/-- The rest of an escape after its backslash: the character, and what follows. -/
def escape? : List Char → Option (Char × List Char)
  | 'u' :: rest => Numeral.escaped? 4 rest
  | 'U' :: rest => Numeral.escaped? 8 rest
  | c :: rest => (ofEscape? c).map (·, rest)
  | [] => none

/-- A basic string after its opening quote; `bound` is enough if the text is no longer. -/
def basic? : (bound : Nat) → List Char → Option (List Char × List Char)
  | 0, _ => none
  | _ + 1, [] => none
  | _ + 1, '\"' :: rest => some ([], rest)
  | bound + 1, '\\' :: rest => do
    let (c, rest) ← escape? rest
    let (text, rest) ← basic? bound rest
    some (c :: text, rest)
  | bound + 1, c :: rest => do
    if isControl c then none
    let (text, rest) ← basic? bound rest
    some (c :: text, rest)

/-- A literal string after its opening quote. -/
def literal? : List Char → Option (List Char × List Char)
  | [] => none
  | '\'' :: rest => some ([], rest)
  | c :: rest => do
    if isControl c then none
    let (text, rest) ← literal? rest
    some (c :: text, rest)

/-- Up to two quotes may stand before the three that close a string of several lines. -/
def closing? (quote : Char) (text : List Char) : Option (List Char × List Char) :=
  let quotes := (text.take 5).takeWhile (· = quote)
  if quotes.length < 3 then none else some (quotes.drop 3, text.drop quotes.length)

def dropLineBreak : List Char → List Char
  | '\n' :: rest => rest
  | '\r' :: '\n' :: rest => rest
  | rest => rest

/-- The text after all blanks and line breaks at its start. -/
def skipBlank : List Char → List Char
  | ' ' :: rest => skipBlank rest
  | '\t' :: rest => skipBlank rest
  | '\n' :: rest => skipBlank rest
  | '\r' :: '\n' :: rest => skipBlank rest
  | rest => rest

/-- After a backslash at the end of a line: all white space up to the next character. -/
def continued? (text : List Char) : Option (List Char) :=
  match text.dropWhile fun c => c = ' ' || c = '\t' with
  | '\n' :: rest => some (skipBlank rest)
  | '\r' :: '\n' :: rest => some (skipBlank rest)
  | _ => none

/-- A string of several lines after its opening quotes; `escapes` says whether a backslash is one. -/
def lines? (quote : Char) (escapes : Bool) : (bound : Nat) → List Char → Option (List Char × List Char)
  | 0, _ => none
  | bound + 1, text =>
    match closing? quote text, text with
    | some ended, _ => some ended
    | none, [] => none
    | none, '\r' :: '\n' :: rest => do
      let (tail, rest) ← lines? quote escapes bound rest
      some ('\n' :: tail, rest)
    | none, c :: rest =>
      if escapes && c = '\\' then
        match continued? rest with
        | some rest => lines? quote escapes bound rest
        | none => do
          let (c, rest) ← escape? rest
          let (tail, rest) ← lines? quote escapes bound rest
          some (c :: tail, rest)
      else do
        if isControl c && c ≠ '\n' then none
        let (tail, rest) ← lines? quote escapes bound rest
        some (c :: tail, rest)

/-- A string of one line at the start of a text. -/
def line? : List Char → Option (List Char × List Char)
  | '\"' :: rest => basic? (rest.length + 1) rest
  | '\'' :: rest => literal? rest
  | _ => none

/-- Any string at the start of a text. -/
def string? : List Char → Option (List Char × List Char)
  | '\"' :: '\"' :: '\"' :: rest => lines? '\"' true (rest.length + 1) (dropLineBreak rest)
  | '\'' :: '\'' :: '\'' :: rest => lines? '\'' false (rest.length + 1) (dropLineBreak rest)
  | text => line? text

/-- A character of a basic string; line breaks stay in a string of several lines. -/
def written (several : Bool) (c : Char) : List Char :=
  match c with
  | '\x08' => ['\\', 'b']
  | '\t' => ['\\', 't']
  | '\n' => if several then ['\n'] else ['\\', 'n']
  | '\x0c' => ['\\', 'f']
  | '\r' => ['\\', 'r']
  | '\"' => ['\\', '\"']
  | '\\' => ['\\', '\\']
  | c =>
    if isControl c then
      ['\\', 'u', '0', '0', (Nat.digitChar (c.toNat / 16)).toUpper, (Nat.digitChar (c.toNat % 16)).toUpper]
    else [c]

/-- The content of a basic string. Of quotes that follow one another, a string of several lines escapes every third;
`quotes` counts those that went before. -/
def basicText (several : Bool) : (quotes : Nat) → List Char → List Char
  | _, [] => []
  | quotes, '\"' :: rest =>
    if several && quotes < 2 then '\"' :: basicText several (quotes + 1) rest
    else written several '\"' ++ basicText several 0 rest
  | _, c :: rest => written several c ++ basicText several 0 rest

def longestRun (c : Char) (text : List Char) : Nat :=
  (text.foldl (fun (run, longest) x => if x = c then (run + 1, max longest (run + 1)) else (0, longest)) (0, 0)).2

/-- Quotes around a string. -/
structure Quotes where
  /-- A literal string has no escapes. -/
  isLiteral : Bool
  several : Bool

/-- Without escapes in a basic string, without them in a literal one, and at last whatever escapes it takes; one line
comes before several. -/
def quotesFor (text : List Char) : Quotes :=
  let breaks := text.contains '\n'
  let controls := text.any fun c => isControl c && c ≠ '\n'
  let escapes := controls || text.contains '\\'
  let doubles := longestRun '\"' text
  let singles := longestRun '\'' text
  if !escapes && doubles = 0 && !breaks then ⟨false, false⟩
  else if !controls && singles = 0 && !breaks then ⟨true, false⟩
  else if !escapes && doubles ≤ 2 then ⟨false, true⟩
  else if !controls && singles ≤ 2 then ⟨true, true⟩
  else ⟨false, breaks⟩

/-- The quotes of one kind that follow one another are counted in one byte. -/
def isCountable (text : List Char) : Bool := longestRun '\"' text < 256 && longestRun '\'' text < 256

def quoted (value : String) : String :=
  let text := value.toList
  let quotes := quotesFor text
  let mark := String.ofList (List.replicate (if quotes.several then 3 else 1) (if quotes.isLiteral then '\'' else '\"'))
  let content := if quotes.isLiteral then value else String.ofList (basicText quotes.several 0 text)
  mark ++ (if quotes.several && text.contains '\n' then "\n" else "") ++ content ++ mark

end SchemaGuide.Toml
