import SchemaGuide.Json.Basic
import SchemaGuide.Node.Discriminator

/-!
The nodes of a schema: what a value may look like at one place of a document. A node never holds another definition;
a discriminator names its variants, and the schema looks them up.
-/

namespace SchemaGuide

inductive Kind where
  | object
  | array
  | map
  | string
  | number
  | boolean
  | unspecified
  deriving DecidableEq

namespace Kind

def word : Kind → String
  | object => "object"
  | array => "array"
  | map => "map"
  | string => "string"
  | number => "number"
  | boolean => "boolean"
  | unspecified => "unspecified"

/-- The kind that a type word means. Integers are numbers; words that are not known leave the kind open. -/
def ofWord (word : String) : Kind :=
  match word with
  | "object" => object
  | "array" => array
  | "map" => map
  | "string" => string
  | "number" => number
  | "integer" => number
  | "boolean" => boolean
  | _ => unspecified

end Kind

/-- What every node says, whatever its kind. -/
structure Header where
  description : Option String := none
  required : Bool := false
  discriminator : Option Discriminator := none
  /-- Fields that a discriminator fills in, so that no editor offers or removes them. -/
  readOnly : List String := []

/-- A value without parts, and the literal that serves as its example. -/
inductive Scalar where
  /-- No restriction when no text is listed. -/
  | string (allowed : List String) (literal : Option String)
  | number (minimum maximum : Option Float) (literal : Option Number)
  | boolean (literal : Option Bool)
  | unspecified (literal : Option Json)

/-- Bounds of arrays are signed, because a negative bound is a defect that is reported. -/
inductive Node where
  | object (header : Header) (properties : List (String × Node))
  | array (header : Header) (items : Node) (minItems maxItems : Option Int)
  | map (header : Header) (values : Node)
  | scalar (header : Header) (form : Scalar)

def Scalar.kind : Scalar → Kind
  | string .. => .string
  | number .. => .number
  | boolean .. => .boolean
  | unspecified .. => .unspecified

namespace Node

def header : Node → Header
  | object header _ => header
  | array header .. => header
  | map header _ => header
  | scalar header _ => header

def withHeader (header : Header) : Node → Node
  | object _ properties => object header properties
  | array _ items minItems maxItems => array header items minItems maxItems
  | map _ values => map header values
  | scalar _ form => scalar header form

def kind : Node → Kind
  | object .. => .object
  | array .. => .array
  | map .. => .map
  | scalar _ form => form.kind

/-- What follows for a node from the nodes directly below it holds of all nodes. -/
@[induction_eliminator]
theorem induction_on_parts {motive : Node → Prop}
    (object : ∀ header properties, (∀ entry ∈ properties, motive entry.2) → motive (object header properties))
    (array : ∀ header items minItems maxItems, motive items → motive (array header items minItems maxItems))
    (map : ∀ header values, motive values → motive (map header values))
    (scalar : ∀ header form, motive (scalar header form)) (node : Node) : motive node := by
  cases node with
  | object header properties =>
    apply object
    intro entry declared
    have smaller := List.sizeOf_lt_of_mem declared
    have inside : sizeOf entry.2 < sizeOf entry := by
      cases entry
      simp only [Prod.mk.sizeOf_spec]
      omega
    exact induction_on_parts object array map scalar entry.2
  | array header items minItems maxItems =>
    exact array header items minItems maxItems (induction_on_parts object array map scalar items)
  | map header values => exact map header values (induction_on_parts object array map scalar values)
  | scalar header form => exact scalar header form
termination_by sizeOf node

def discriminator? (node : Node) : Option Discriminator := node.header.discriminator

def isRequired (node : Node) : Bool := node.header.required

def isReadOnly (node : Node) (field : String) : Bool := node.header.readOnly.contains field

/-- The declared fields; only objects declare fields. -/
def properties? : Node → Option (Entries Node)
  | object _ properties => some properties
  | _ => none

def property? (node : Node) (key : String) : Option Node := node.properties?.bind (·.lookup key)

/-- The node of every element of an array or every value of a map. -/
def sample? : Node → Option Node
  | array _ items _ _ => some items
  | map _ values => some values
  | _ => none

@[simp] theorem header_withHeader (header : Header) (node : Node) : (node.withHeader header).header = header := by
  cases node <;> rfl

@[simp] theorem withHeader_header (node : Node) : node.withHeader node.header = node := by
  cases node <;> rfl

@[simp] theorem withHeader_withHeader (first second : Header) (node : Node) :
    (node.withHeader first).withHeader second = node.withHeader second := by
  cases node <;> rfl

@[simp] theorem kind_withHeader (header : Header) (node : Node) : (node.withHeader header).kind = node.kind := by
  cases node <;> rfl

theorem eq_object_of_kind {node : Node} (object : node.kind = .object) :
    ∃ header properties, node = .object header properties := by
  cases node with
  | object header properties => exact ⟨header, properties, rfl⟩
  | array | map => cases object
  | scalar header form => cases form <;> cases object

/-- The texts that a string may be, none when any text will do. -/
def allowed : Node → List String
  | scalar _ (.string allowed _) => allowed
  | _ => []

end Node

end SchemaGuide
