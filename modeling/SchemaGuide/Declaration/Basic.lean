import SchemaGuide.Node.Discriminator
import SchemaGuide.Json.Basic

/-!
Declarations: definitions as they are stored in files, one field for each thing that a node of some kind may need.
Fields have an order, because a declaration may also be written as a list.
-/

namespace SchemaGuide

structure Declaration where
  kind : Option String
  description : Option String
  required : Bool
  discriminator : Option Discriminator
  properties : List (String × Declaration)
  items : Option Declaration
  additional : Option Declaration
  minItems : Option Int
  maxItems : Option Int
  allowed : List String
  minimum : Option Float
  maximum : Option Float
  literal : Option Json

namespace Declaration

def empty : Declaration :=
  ⟨none, none, false, none, [], none, none, none, none, [], none, none, none⟩

inductive Field where
  | kind
  | description
  | required
  | discriminator
  | properties
  | items
  | additional
  | minItems
  | maxItems
  | allowed
  | minimum
  | maximum
  | literal
  deriving DecidableEq

namespace Field

def all : List Field :=
  [kind, description, required, discriminator, properties, items, additional, minItems, maxItems, allowed, minimum,
    maximum, literal]

def key : Field → String
  | kind => "type"
  | description => "description"
  | required => "isRequired"
  | discriminator => "discriminator"
  | properties => "properties"
  | items => "items"
  | additional => "additionalProperties"
  | minItems => "minItems"
  | maxItems => "maxItems"
  | allowed => "enum"
  | minimum => "minimum"
  | maximum => "maximum"
  | literal => "example"

def ofKey? (key : String) : Option Field := all.find? (·.key = key)

theorem ofKey?_key (field : Field) : ofKey? field.key = some field := by
  cases field <;> rfl

end Field

end Declaration

end SchemaGuide
