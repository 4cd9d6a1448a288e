import SchemaGuide.Json.Basic

/-!
JSON text. The compact form has no white space at all; the pretty form puts every element on a line of its own,
indented by two spaces a level. Strings escape what JSON demands and nothing more.
-/

namespace SchemaGuide.Json

private def hexPair (code : Nat) : List Char := [Nat.digitChar (code / 16), Nat.digitChar (code % 16)]

def escape (c : Char) : List Char :=
  match c with
  | '\"' => ['\\', '\"']
  | '\\' => ['\\', '\\']
  | '\x08' => ['\\', 'b']
  | '\x0c' => ['\\', 'f']
  | '\n' => ['\\', 'n']
  | '\r' => ['\\', 'r']
  | '\t' => ['\\', 't']
  | c => if c.toNat < 0x20 then ['\\', 'u', '0', '0'] ++ hexPair c.toNat else [c]

def quoted (text : String) : String :=
  "\"" ++ String.ofList (text.toList.flatMap escape) ++ "\""

mutual
def compact : Json → String
  | .null => "null"
  | .bool value => if value then "true" else "false"
  | .num value => value.text
  | .str value => quoted value
  | .arr elements => "[" ++ String.intercalate "," (compactElements elements) ++ "]"
  | .obj members => "\x7b" ++ String.intercalate "," (compactMembers members) ++ "\x7d"

def compactElements : List Json → List String
  | [] => []
  | element :: rest => element.compact :: compactElements rest

def compactMembers : List (String × Json) → List String
  | [] => []
  | (key, value) :: rest => (quoted key ++ ":" ++ value.compact) :: compactMembers rest
end

private def newline (depth : Nat) : String := "\n" ++ String.ofList (List.replicate (2 * depth) ' ')

/-- Items on lines of their own between two brackets; nothing between the brackets of an empty container. -/
private def block (opening closing : String) (depth : Nat) (items : List String) : String :=
  if items.isEmpty then opening ++ closing
  else opening ++ newline (depth + 1) ++ String.intercalate ("," ++ newline (depth + 1)) items ++ newline depth ++ closing

mutual
/-- The pretty form of a value that stands `depth` levels deep. -/
def prettyAt (depth : Nat) : Json → String
  | .arr elements => block "[" "]" depth (prettyElements (depth + 1) elements)
  | .obj members => block "\x7b" "\x7d" depth (prettyMembers (depth + 1) members)
  | .null => "null"
  | .bool value => if value then "true" else "false"
  | .num value => value.text
  | .str value => quoted value

def prettyElements (depth : Nat) : List Json → List String
  | [] => []
  | element :: rest => element.prettyAt depth :: prettyElements depth rest

def prettyMembers (depth : Nat) : List (String × Json) → List String
  | [] => []
  | (key, value) :: rest => (quoted key ++ ": " ++ value.prettyAt depth) :: prettyMembers depth rest
end

def pretty (value : Json) : String := value.prettyAt 0

end SchemaGuide.Json
