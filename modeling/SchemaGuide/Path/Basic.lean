import SchemaGuide.Json.Basic
import SchemaGuide.Text.Numeral

/-!
Paths into documents. A step names a member of an object or a place in an array; each can be read as the other, so a
member may be addressed by its number and an element by its numeral.
-/

namespace SchemaGuide

inductive Step where
  | key (name : String)
  | index (position : Nat)
  deriving DecidableEq

namespace Step

def text : Step → String
  | .key name => name
  | .index position => position.repr

def position? : Step → Option Nat
  | .key name => Numeral.position? name
  | .index position => some position

def toJson : Step → Json
  | .key name => .str name
  | .index position => Json.ofNat position

/-- Strings are keys, and whole numbers up to the greatest position are indices. -/
def ofJson? : Json → Option Step
  | .str name => some (.key name)
  | .num (.int value) => if 0 ≤ value && value ≤ Numeral.greatest then some (.index value.toNat) else none
  | _ => none

end Step

abbrev Path := List Step

namespace Path

def toJson (path : Path) : Json := .arr (path.map Step.toJson)

def ofJson? (value : Json) : Option Path := value.elements?.bind (·.mapM Step.ofJson?)

end Path

end SchemaGuide
