import SchemaGuide.Json.Written
import SchemaGuide.Text.Radix

/-!
The tokens of JSON text. Outside strings the text falls into brackets, separators and words, and a word is a literal
or a number. Inside strings the escapes are undone; two escaped halves of a surrogate pair make one character.
-/

namespace SchemaGuide.Json

inductive Token where
  | beginArray
  | endArray
  | beginObject
  | endObject
  | comma
  | colon
  | scalar (written : Written)
  | text (value : Option String)

/-- What a string is made of: characters, and code units that were escaped by number. -/
inductive Piece where
  | char (c : Char)
  | unit (code : Nat)

namespace Piece

def isHigh (code : Nat) : Bool := 0xd800 ≤ code && code < 0xdc00

def isLow (code : Nat) : Bool := 0xdc00 ≤ code && code < 0xe000

/-- The text of a string; nothing when half a pair stands alone. -/
def text? : List Piece → Option (List Char)
  | [] => some []
  | .char c :: rest => (text? rest).map (c :: ·)
  | .unit high :: rest =>
    if isHigh high then
      match rest with
      | .unit low :: more =>
        if isLow low then
          (text? more).map (Char.ofNat (0x10000 + (high - 0xd800) * 0x400 + (low - 0xdc00)) :: ·)
        else none
      | _ => none
    else if isLow high then none
    else (text? rest).map (Char.ofNat high :: ·)

def ofEscape? : Char → Option Piece
  | '\"' => some (.char '\"')
  | '\\' => some (.char '\\')
  | '/' => some (.char '/')
  | 'b' => some (.char '\x08')
  | 'f' => some (.char '\x0c')
  | 'n' => some (.char '\n')
  | 'r' => some (.char '\r')
  | 't' => some (.char '\t')
  | _ => none

end Piece

namespace Token

/-- A literal or a number; other words have no meaning. -/
def ofWord? (word : List Char) : Option Token :=
  if word = "null".toList then some (.scalar .null)
  else if word = "true".toList then some (.scalar (.bool true))
  else if word = "false".toList then some (.scalar (.bool false))
  else (Number.Spelling.read? word).map fun spelling =>
    .scalar (match spelling.number? with
      | some value => .num value
      | none => .unreadable)

def ofPunctuation? : Char → Option Token
  | '[' => some .beginArray
  | ']' => some .endArray
  | '\x7b' => some .beginObject
  | '\x7d' => some .endObject
  | ',' => some .comma
  | ':' => some .colon
  | _ => none

end Token

def isSpace (c : Char) : Bool := c = ' ' || c = '\t' || c = '\n' || c = '\r'

/-- Where a scan stands; pieces and words are collected last first. -/
inductive ScanMode where
  | outside (word : List Char)
  | quoted (pieces : List Piece)
  | escaped (pieces : List Piece)
  | numbered (pieces : List Piece) (digits : Nat) (code : Nat)

structure Scan where
  tokens : List Token
  mode : ScanMode

namespace Scan

def start : Scan := ⟨[], .outside []⟩

def endWord? (tokens : List Token) (word : List Char) : Option (List Token) :=
  if word.isEmpty then some tokens else (Token.ofWord? word.reverse).map (· :: tokens)

def step? (scan : Scan) (c : Char) : Option Scan :=
  match scan.mode with
  | .outside word =>
    if isSpace c then (endWord? scan.tokens word).map (⟨·, .outside []⟩)
    else if c = '\"' then (endWord? scan.tokens word).map (⟨·, .quoted []⟩)
    else match Token.ofPunctuation? c with
      | some token => (endWord? scan.tokens word).map fun tokens => ⟨token :: tokens, .outside []⟩
      | none => some ⟨scan.tokens, .outside (c :: word)⟩
  | .quoted pieces =>
    if c = '\"' then
      some ⟨.text ((Piece.text? pieces.reverse).map String.ofList) :: scan.tokens, .outside []⟩
    else if c = '\\' then some ⟨scan.tokens, .escaped pieces⟩
    else if c.toNat < 0x20 then none
    else some ⟨scan.tokens, .quoted (.char c :: pieces)⟩
  | .escaped pieces =>
    if c = 'u' then some ⟨scan.tokens, .numbered pieces 0 0⟩
    else (Piece.ofEscape? c).map fun piece => ⟨scan.tokens, .quoted (piece :: pieces)⟩
  | .numbered pieces digits code =>
    (Numeral.hexDigit? c).map fun digit =>
      let code := 16 * code + digit
      if digits = 3 then ⟨scan.tokens, .quoted (.unit code :: pieces)⟩
      else ⟨scan.tokens, .numbered pieces (digits + 1) code⟩

def finish? (scan : Scan) : Option (List Token) :=
  match scan.mode with
  | .outside word => (endWord? scan.tokens word).map List.reverse
  | _ => none

end Scan

def tokens? (text : String) : Option (List Token) :=
  (text.toList.foldlM Scan.step? Scan.start).bind Scan.finish?

end SchemaGuide.Json
