import SchemaGuide.Node.Basic

/-!
Where nodes occur inside a definition: the node itself and, in order of declaration, all those below it.
-/

namespace SchemaGuide

inductive Descent where
  | property (key : String)
  | items
  | values
  deriving DecidableEq

namespace Descent

def text : Descent → String
  | property key => "." ++ key
  | items => "[]"
  | values => "[*]"

end Descent

abbrev Location := List Descent

namespace Location

def text (location : Location) : String := String.join (location.map Descent.text)

def shown (location : Location) : String :=
  if location.text.isEmpty then "<root>" else location.text

end Location

namespace Node

mutual
/-- The node and all nodes below it, each before those below it. -/
def occurrences : Node → List (Location × Node)
  | object header properties => ([], object header properties) :: propertyOccurrences properties
  | array header items minItems maxItems =>
    ([], array header items minItems maxItems) :: items.occurrences.map fun (rest, node) => (.items :: rest, node)
  | map header values =>
    ([], map header values) :: values.occurrences.map fun (rest, node) => (.values :: rest, node)
  | scalar header form => [([], scalar header form)]

def propertyOccurrences : List (String × Node) → List (Location × Node)
  | [] => []
  | (key, child) :: others =>
    child.occurrences.map (fun (rest, node) => (.property key :: rest, node)) ++ propertyOccurrences others
end

end Node

end SchemaGuide
