import SchemaGuide.Path.Basic
import SchemaGuide.Text.Pieces

/-!
The written form of paths. Keys follow a point and indices stand in brackets; when a path is read, points and opening
brackets separate, closing brackets are dropped, and every piece that can be a position is one.
-/

namespace SchemaGuide

def Step.shown : Step → String
  | .key name => "." ++ name
  | .index position => "[" ++ position.repr ++ "]"

namespace Path

def rootText : String := "<root>"

def format (path : Path) : String :=
  if path.isEmpty then rootText else String.join (path.map Step.shown)

def separates (c : Char) : Bool := c = '.' || c = '['

def stepOfPiece (piece : List Char) : Step :=
  let name := String.ofList piece
  match Numeral.position? name with
  | some position => .index position
  | none => .key name

def parse (text : String) : Path :=
  let pieces := Text.pieces separates (text.toList.filter (· ≠ ']'))
  (pieces.filter (!·.isEmpty)).map stepOfPiece

end Path

end SchemaGuide
