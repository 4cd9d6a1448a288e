import SchemaGuide.Json.Access
import SchemaGuide.Node.Edit
import SchemaGuide.Schema.Defect

/-!
Schemas: a table of definitions with the defects found in it. The variant of a tag is the definition that the tag is
mapped to, carrying the tag; all variants are made when the schema is built, so definitions may refer to one another in
any order.
-/

namespace SchemaGuide

/-- A tag that some discriminator on `property` maps to the definition `target`. -/
structure TagUse where
  target : String
  property : String
  tag : String
  deriving DecidableEq

structure Schema where
  definitions : Entries Node
  /-- The variant of every tag in use. -/
  tagged : List (TagUse × Node)
  defects : List Defect

namespace Schema

def names (schema : Schema) : List String := Entries.keys schema.definitions

def definition? (schema : Schema) (name : String) : Option Node := schema.definitions.lookup name

/-- The variant that a tag stands for; nothing when the tag is not in use. -/
def variant? (schema : Schema) (d : Discriminator) (tag : String) : Option Node :=
  (d.target? tag).bind fun target => schema.tagged.lookup ⟨target, d.property, tag⟩

/-- All variants with their tags, in the order of the mapping. -/
def variants (schema : Schema) (d : Discriminator) : Entries Node :=
  d.tags.filterMap fun tag => (schema.variant? d tag).map (tag, ·)

/-- The variant that the tag of a value selects. -/
def selected? (schema : Schema) (node : Node) (value : Option Json) : Option Node := do
  let d ← node.discriminator?
  let tag ← (← value).tag? d.property
  schema.variant? d tag

/-- The node that rules a value: the variant that its tag selects, or else the node itself. -/
def governing (schema : Schema) (node : Node) (value : Option Json) : Node :=
  (schema.selected? node value).getD node

end Schema

end SchemaGuide
