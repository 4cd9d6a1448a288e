import SchemaGuide.Node.Basic

/-!
Nodes made and changed. A change that does not fit the kind of a node leaves it as it is. Tagging makes the variant
of a definition: the property that carries the tag becomes read-only and, in an object, a required field that holds it.
-/

namespace SchemaGuide.Node

def ofProperties (properties : Entries Node) : Node := object {} properties

def ofItems (items : Node) : Node := array {} items none none

def ofValues (values : Node) : Node := map {} values

def ofScalar (form : Scalar) : Node := scalar {} form

def anyString : Scalar := .string [] none

def anyNumber : Scalar := .number none none none

def require (node : Node) : Node := node.withHeader { node.header with required := true }

def describe (node : Node) (description : String) : Node :=
  node.withHeader { node.header with description := some description }

def discriminate (node : Node) (d : Discriminator) : Node :=
  node.withHeader { node.header with discriminator := some d }

def withBounds (minItems maxItems : Option Int) : Node → Node
  | array header items _ _ => array header items minItems maxItems
  | node => node

def withRange (minimum maximum : Option Float) : Node → Node
  | scalar header (.number _ _ literal) => scalar header (.number minimum maximum literal)
  | node => node

def withAllowed (allowed : List String) : Node → Node
  | scalar header (.string _ literal) => scalar header (.string allowed literal)
  | node => node

def withLiteral (value : Json) : Node → Node
  | scalar header (.unspecified _) => scalar header (.unspecified (some value))
  | scalar header (.string allowed literal) =>
    match value with
    | .str text => scalar header (.string allowed (some text))
    | _ => scalar header (.string allowed literal)
  | scalar header (.number minimum maximum literal) =>
    match value with
    | .num number => scalar header (.number minimum maximum (some number))
    | _ => scalar header (.number minimum maximum literal)
  | scalar header (.boolean literal) =>
    match value with
    | .bool flag => scalar header (.boolean (some flag))
    | _ => scalar header (.boolean literal)
  | node => node

/-- A field is marked once; marks stand in the order in which they were made. -/
def markReadOnly (node : Node) (field : String) : Node :=
  if node.isReadOnly field then node
  else node.withHeader { node.header with readOnly := node.header.readOnly ++ [field] }

theorem isReadOnly_markReadOnly {node : Node} {field other : String} :
    (node.markReadOnly field).isReadOnly other ↔ other = field ∨ node.isReadOnly other := by
  unfold markReadOnly
  split
  next known =>
    constructor
    · exact .inr
    · rintro (rfl | marked)
      · exact known
      · exact marked
  · simp [isReadOnly, or_comm]

theorem markReadOnly_of_isReadOnly {node : Node} {field : String} (known : node.isReadOnly field) :
    node.markReadOnly field = node := if_pos known

/-- A mark changes nothing but the list of marks. -/
theorem markReadOnly_eq_withHeader (node : Node) (field : String) :
    node.markReadOnly field =
      node.withHeader { node.header with readOnly := (node.markReadOnly field).header.readOnly } := by
  unfold markReadOnly
  split
  · exact (withHeader_header node).symm
  · simp

/-- The field that pins a tag. -/
def tagField (tag : String) : Node := scalar { required := true } (.string [] (some tag))

/-- Only an object can hold its tag in a field. -/
def canCarryTag (node : Node) : Bool := node.kind = .object

/-- The variant of a definition that `tag` under `property` stands for. -/
def tagged (node : Node) (property tag : String) : Node :=
  match node.markReadOnly property with
  | object header properties => object header (Entries.put property (tagField tag) properties)
  | marked => marked

@[simp] theorem discriminator?_markReadOnly (node : Node) (field : String) :
    (node.markReadOnly field).discriminator? = node.discriminator? := by
  rw [markReadOnly_eq_withHeader]
  simp [discriminator?]

@[simp] theorem kind_markReadOnly (node : Node) (field : String) : (node.markReadOnly field).kind = node.kind := by
  rw [markReadOnly_eq_withHeader, kind_withHeader]

@[simp] theorem header_tagged (node : Node) (property tag : String) :
    (node.tagged property tag).header = (node.markReadOnly property).header := by
  unfold tagged
  split
  next marked => rw [marked]; rfl
  · rfl

@[simp] theorem discriminator?_tagged (node : Node) (property tag : String) :
    (node.tagged property tag).discriminator? = node.discriminator? := by
  rw [discriminator?, header_tagged]
  exact discriminator?_markReadOnly node property

theorem isReadOnly_tagged (node : Node) (property tag : String) : (node.tagged property tag).isReadOnly property := by
  rw [isReadOnly, header_tagged]
  exact isReadOnly_markReadOnly.mpr (.inl rfl)

/-- The variant of an object holds its tag in a field. -/
theorem pinned_tagged {node : Node} (object : node.kind = .object) (property tag : String) :
    ∃ header properties, node.tagged property tag = .object header properties ∧
      properties.lookup property = some (tagField tag) := by
  have marked : (node.markReadOnly property).kind = .object := by
    rw [kind_markReadOnly]
    exact object
  obtain ⟨header, properties, shape⟩ := eq_object_of_kind marked
  refine ⟨header, Entries.put property (tagField tag) properties, ?_, ?_⟩
  · rw [tagged, shape]
  · rw [Entries.lookup_put, if_pos rfl]

end SchemaGuide.Node
