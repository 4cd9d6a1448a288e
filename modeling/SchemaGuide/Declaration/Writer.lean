import SchemaGuide.Declaration.Basic

/-!
Declarations written as JSON: the fields in their order, and of those that may be missing only the ones that are there.
-/

namespace SchemaGuide

def Discriminator.toJson (d : Discriminator) : Json :=
  .obj [("propertyName", .str d.property), ("mapping", .obj (d.mapping.map fun (tag, reference) => (tag, .str reference)))]

namespace Declaration

def member (field : Field) (value : Option Json) : List (String × Json) :=
  (value.map (field.key, ·)).toList

def filled {α : Type} (wrap : List α → Json) (content : List α) : Option Json :=
  if content.isEmpty then none else some (wrap content)

mutual
def toJson : Declaration → Json
  | ⟨kind, description, required, discriminator, properties, items, additional, minItems, maxItems, allowed, minimum,
      maximum, literal⟩ =>
    .obj <|
      member .kind (kind.map .str) ++
      member .description (description.map .str) ++
      member .required (some (.bool required)) ++
      member .discriminator (discriminator.map Discriminator.toJson) ++
      member .properties (filled .obj (tableMembers properties)) ++
      member .items (nestedJson items) ++
      member .additional (nestedJson additional) ++
      member .minItems (minItems.map Json.ofInt) ++
      member .maxItems (maxItems.map Json.ofInt) ++
      member .allowed (filled Json.strings allowed) ++
      member .minimum (minimum.map fun x => .num (.float x)) ++
      member .maximum (maximum.map fun x => .num (.float x)) ++
      member .literal literal

def tableMembers : List (String × Declaration) → List (String × Json)
  | [] => []
  | (name, declaration) :: rest => (name, declaration.toJson) :: tableMembers rest

def nestedJson : Option Declaration → Option Json
  | none => none
  | some declaration => some declaration.toJson
end

end Declaration

end SchemaGuide
