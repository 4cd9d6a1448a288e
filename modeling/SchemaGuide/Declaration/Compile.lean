import SchemaGuide.Declaration.Basic
import SchemaGuide.Node.Edit
import SchemaGuide.Node.Occurrence
import SchemaGuide.Json.Printer
import SchemaGuide.Schema.Failure

/-!
Declarations compiled to nodes. A declaration is read by its kind: what other kinds need is ignored, and what its own
kind needs must be there. A failure names the place of the first declaration that does not fit.
-/

namespace SchemaGuide.Declaration

/-- The kind of the node. An object without properties that admits additional ones is a map. -/
def nodeKind (word : Option String) (properties : List (String × Declaration)) (additional : Option Declaration) : Kind :=
  match (word.map Kind.ofWord).getD .unspecified with
  | .object => if properties.isEmpty && additional.isSome then .map else .object
  | kind => kind

def misfit (place : String) (kind : Kind) (literal : Json) : Failure :=
  .invalidFormat place ("example " ++ literal.compact ++ " does not fit a " ++ kind.word ++ " node")

def literalOf {α : Type} (place : String) (kind : Kind) (accept? : Json → Option α) (literal : Option Json) :
    Except Failure (Option α) :=
  match literal with
  | none => .ok none
  | some value =>
    match accept? value with
    | some accepted => .ok (some accepted)
    | none => .error (misfit place kind value)

def number? : Json → Option Number
  | .num value => some value
  | _ => none

mutual
/-- The node of a declaration; `place` names the declaration in failures. -/
def compile (place : String) : Declaration → Except Failure Node
  | ⟨word, description, required, discriminator, properties, items, additional, minItems, maxItems, allowed, minimum,
      maximum, literal⟩ =>
    let header : Header := { description, required, discriminator }
    match nodeKind word properties additional with
    | .object => do return .object header (← compileProperties place properties)
    | .map => do
      return .map header (← compileNested (place ++ Descent.values.text)
        (.invalidFormat place "map node has no additionalProperties") additional)
    | .array => do
      let items ← compileNested (place ++ Descent.items.text) (.invalidFormat place "array node has no items") items
      return .array header items minItems maxItems
    | .string => do return .scalar header (.string allowed (← literalOf place .string Json.string? literal))
    | .number => do return .scalar header (.number minimum maximum (← literalOf place .number number? literal))
    | .boolean => do return .scalar header (.boolean (← literalOf place .boolean Json.bool? literal))
    | .unspecified => .ok (.scalar header (.unspecified literal))

def compileProperties (place : String) : List (String × Declaration) → Except Failure (List (String × Node))
  | [] => .ok []
  | (key, declaration) :: rest => do
    let node ← compile (place ++ (Descent.property key).text) declaration
    let others ← compileProperties place rest
    return (key, node) :: others

def compileNested (place : String) (missing : Failure) : Option Declaration → Except Failure Node
  | none => .error missing
  | some declaration => compile place declaration
end

/-- A table of definitions, each placed under its own name. -/
def compileTable (table : Entries Declaration) : Except Failure (Entries Node) :=
  table.mapM fun (name, declaration) => do return (name, ← compile name declaration)

end SchemaGuide.Declaration
