import SchemaGuide.Settings.Yaml.Cursor
import SchemaGuide.Text.Pieces

/-!
Scalars of YAML: plain ones, ones in quotes, and blocks of lines. Over several lines, a single line break becomes a
space and of more than one the first is dropped; only literal blocks keep their lines.
-/

namespace SchemaGuide.Yaml

def folded (breaks : Nat) : List Char := if breaks = 1 then [' '] else List.replicate (breaks - 1) '\n'

/-- Whether a plain scalar may begin with a text; brackets end one in `flow`. -/
def canBegin (flow : Bool) : List Char → Bool
  | [] => false
  | c :: rest =>
    if c = '-' then !endsWord rest && !(flow && startsBracket rest)
    else if c = '?' || c = ':' then !endsWord rest
    else
      let marks := ['#', '&', '*', '!', '\'', '\"', '%', '@', '\x60']
      !isSpace c && c ≠ '\n' && !isBracket c && !marks.contains c && (flow || (c ≠ '|' && c ≠ '>'))

/-- The part of a plain scalar on one line, without blanks at its end. -/
def plainLine (flow : Bool) : List Char → List Char
  | [] => []
  | c :: rest =>
    if c = '\n' || (flow && isBracket c) then []
    else if c = ':' && (endsWord rest || (flow && startsBracket rest)) then []
    else if isSpace c then
      if rest.head? = some '#' then []
      else match plainLine flow rest with
        | [] => []
        | line => c :: line
    else c :: plainLine flow rest

/-- The lines of a plain scalar after its first; they stand deeper than the block around it, unless in brackets. -/
def laterLines? (flow : Bool) (around : Int) : (bound : Nat) → Cursor → Option (List Char × Cursor)
  | 0, _ => none
  | bound + 1, here => do
    let next ← here.nextWord? around
    let line := plainLine flow next.rest
    if next.line = here.line || next.isEnded || next.rest.head? = some '#' || line.isEmpty ||
        (!flow && next.column ≤ around) then
      some ([], here)
    else do
      let (others, last) ← laterLines? flow around bound (next.drop line.length)
      some (folded (next.line - here.line) ++ line ++ others, last)

def plain? (flow : Bool) (around : Int) (here : Cursor) : Option (List Char × Cursor) := do
  let line := plainLine flow here.rest
  let (others, last) ← laterLines? flow around (here.rest.length + 1) (here.drop line.length)
  some (line ++ others, last)

def escapeWidth? : Char → Option Nat
  | 'x' => some 2
  | 'u' => some 4
  | 'U' => some 8
  | _ => none

def ofEscape? : Char → Option Char
  | '0' => some '\x00'
  | 'a' => some '\x07'
  | 'b' => some '\x08'
  | 't' => some '\t'
  | '\t' => some '\t'
  | 'n' => some '\n'
  | 'v' => some '\x0b'
  | 'f' => some '\x0c'
  | 'r' => some '\r'
  | 'e' => some '\x1b'
  | ' ' => some ' '
  | '\"' => some '\"'
  | '/' => some '/'
  | '\\' => some '\\'
  | 'N' => some '\u0085'
  | '_' => some '\u00a0'
  | 'L' => some '\u2028'
  | 'P' => some '\u2029'
  | _ => none

def escape? (here : Cursor) : Option (Char × Cursor) :=
  match here.rest with
  | [] => none
  | letter :: rest =>
    match escapeWidth? letter with
    | some width => (Numeral.escaped? width rest).map fun (c, _) => (c, here.drop (width + 1))
    | none => (ofEscape? letter).map fun c => (c, here.drop 1)

/-- A scalar after its opening quote. In single quotes, one is written twice to stand for itself; in double quotes there
are escapes. The lines of a scalar stand deeper than the block around it. -/
def quoted? (quote : Char) (around : Int) : (bound : Nat) → Cursor → Option (List Char × Cursor)
  | 0, _ => none
  | bound + 1, here => do
    let continued (front : List Char) (next : Cursor) := do
      let (others, last) ← quoted? quote around bound next
      some (front ++ others, last)
    let onLine (next : Cursor) : Option Unit := if next.isEnded || next.column ≤ around then none else some ()
    match here.rest with
    | [] => none
    | c :: rest =>
      if c = quote then
        if quote = '\'' && rest.head? = some '\'' then continued ['\''] (here.drop 2) else some ([], here.drop 1)
      else if c = '\\' && quote = '\"' then
        if rest.head? = some '\n' then do
          let next ← here.step.step.nextWord? around
          onLine next
          continued (List.replicate (next.line - here.line - 1) '\n') next
        else do
          let (c, next) ← escape? (here.drop 1)
          continued [c] next
      else if isSpace c || c = '\n' then do
        let next ← here.nextWord? around
        if next.line = here.line then continued (here.rest.take (next.column - here.column)) next
        else do
          onLine next
          continued (folded (next.line - here.line)) next
      else continued [c] (here.drop 1)

def quote? (around : Int) (here : Cursor) : Option (List Char × Cursor) :=
  here.rest.head?.bind fun quote => quoted? quote around (here.rest.length + 1) (here.drop 1)

/-! Blocks of lines -/

/-- What becomes of the line breaks at the end of a block. -/
inductive Chomping where
  | strip
  | clip
  | keep
  deriving DecidableEq

structure BlockHeader where
  isLiteral : Bool
  chomping : Chomping
  /-- How much deeper than the block around it the lines stand, if the header says so. -/
  depth : Option Nat

def Chomping.ofMark? : Char → Option Chomping
  | '-' => some .strip
  | '+' => some .keep
  | _ => none

def depth? (c : Char) : Option Nat := if c.isDigit && c ≠ '0' then some (c.toNat - '0'.toNat) else none

def BlockHeader.ofMarks? (isLiteral : Bool) : List Char → Option BlockHeader
  | [] => some ⟨isLiteral, .clip, none⟩
  | [c] =>
    match Chomping.ofMark? c, depth? c with
    | some chomping, _ => some ⟨isLiteral, chomping, none⟩
    | none, some depth => some ⟨isLiteral, .clip, some depth⟩
    | none, none => none
  | [first, second] =>
    match Chomping.ofMark? first, depth? second, depth? first, Chomping.ofMark? second with
    | some chomping, some depth, _, _ => some ⟨isLiteral, chomping, some depth⟩
    | _, _, some depth, some chomping => some ⟨isLiteral, chomping, some depth⟩
    | _, _, _, _ => none
  | _ => none

def isBlankLine (line : List Char) : Bool := line.all (· = ' ')

def indentation (line : List Char) : Nat := (line.takeWhile (· = ' ')).length

/-- How deep the lines of a block stand: as the first that is not blank, or as a blank one before it that is longer, but
deeper than the block around it. -/
def blockIndentation (header : BlockHeader) (around : Int) (lines : List (List Char)) : Nat :=
  match header.depth with
  | some depth => around.toNat + depth
  | none =>
    let first := (lines.dropWhile isBlankLine).take 1
    ((lines.takeWhile isBlankLine ++ first).map indentation).foldl max (around + 1).toNat

/-- The lines that belong to a block; a blank one is nothing. -/
def blockLines (indent : Nat) : List (List Char) → List (Option (List Char))
  | [] => []
  | line :: rest =>
    if isBlankLine line && line.length ≤ indent then none :: blockLines indent rest
    else if indent ≤ indentation line then some (line.drop indent) :: blockLines indent rest
    else []

/-- The lines of a block in one text. `breaks` counts the blank lines since the last that was not; `indented` says
whether that one began with a blank, and is nothing before it. Lines that begin with a blank keep their line breaks. -/
def blockText (header : BlockHeader) :
    (breaks : Nat) → (indented : Option Bool) → List (Option (List Char)) → List Char
  | breaks, indented, [] =>
    let last := if indented.isSome then ['\n'] else []
    match header.chomping with
    | .strip => []
    | .clip => last
    | .keep => last ++ List.replicate breaks '\n'
  | breaks, indented, none :: rest => blockText header (breaks + 1) indented rest
  | breaks, indented, some line :: rest =>
    let begins := line.head?.any isSpace
    let before := match indented with
      | none => List.replicate breaks '\n'
      | some last =>
        if header.isLiteral || last || begins then List.replicate (breaks + 1) '\n' else folded (breaks + 1)
    before ++ line ++ blockText header 0 (some begins) rest

/-- A block of lines from its mark on. What follows it begins a line. -/
def block? (around : Int) (here : Cursor) : Option (List Char × Cursor) := do
  let marks := (here.rest.drop 1).takeWhile fun c => !isSpace c && c ≠ '\n'
  let header ← BlockHeader.ofMarks? (here.rest.head? = some '|') marks
  let afterMarks := here.drop (marks.length + 1)
  if !afterMarks.endsLine then none
  let start := afterMarks.dropLine
  if start.rest.head? = some '\t' then none
  let lines := Text.pieces (· = '\n') start.rest
  let lines := if (lines.getLast?.map isBlankLine).getD false then lines.dropLast else lines
  let indent := blockIndentation header around lines
  let taken := blockLines indent lines
  let last := taken.foldl (fun here _ => here.dropLine) start
  let next := indentation last.rest
  let isMisplaced := taken.all (·.isNone) && !last.rest.isEmpty && around < next && next < indent
  if isMisplaced then none else some (blockText header 0 none taken, last)

end SchemaGuide.Yaml
