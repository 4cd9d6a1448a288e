import SchemaGuide.Schema.Basic
import SchemaGuide.Schema.Problem

/-!
The node at a path. On the way a discriminator follows the tag that the document carries, or a step that names a tag;
elements of arrays and values of maps have their node whether or not the document has them.
-/

namespace SchemaGuide

namespace Schema

/-- The variant that a step names by its tag. An index never names one. -/
def taggedBy? (schema : Schema) (node : Node) : Step → Option Node
  | .key tag => node.discriminator?.bind (schema.variant? · tag)
  | .index _ => none

/-- The node below `node` that the body of `node` has for a step. -/
def below? (node : Node) (step : Step) : Option Node :=
  match node with
  | .object _ properties => properties.lookup step.text
  | .array _ items _ _ => step.position?.map fun _ => items
  | .map _ values => some values
  | .scalar _ _ => none

def enter? (schema : Schema) (node : Node) (step : Step) : Option Node :=
  (schema.taggedBy? node step).or (below? node step)

/-- Follows a path from a node and the value it rules; a failure is the shortest part of the path that fails. -/
def descend (schema : Schema) (node : Node) (value : Option Json) : Path → Except Path Node
  | [] => .ok node
  | step :: rest =>
    match schema.enter? (schema.governing node value) step with
    | none => .error [step]
    | some next => (schema.descend next (value.bind (·.child? step)) rest).mapError (step :: ·)

/-- The node at a path of the definition `group`. -/
def nodeAt (schema : Schema) (group : String) (path : Path) (document : Option Json) : Except Refusal Node :=
  match schema.definition? group with
  | none => .error (.invalidPath group [])
  | some node => (schema.descend node document path).mapError (.invalidPath group)

end Schema

def Node.caption (node : Node) (group : String) : String := node.kind.word ++ " node in '" ++ group ++ "'"

end SchemaGuide
