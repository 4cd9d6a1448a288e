import SchemaGuide.Schema.Navigation
import SchemaGuide.Schema.Template

/-!
What an editor may offer to insert at a place of a document: the fields that are missing, or a sample of the elements
and entries that can always be added. A discriminated place offers one choice for each tag.
-/

namespace SchemaGuide

structure Offer where
  key : String
  field : String
  description : String
  value : Json
  /-- Elements and entries are offered however many there are. -/
  repeatable : Bool

namespace Offer

def sampleDescription (key : String) : String := "Add sample item to " ++ key

def distinct (offers : List Offer) : List Offer :=
  offers.foldl (fun kept offer => if kept.any (·.key = offer.key) then kept else kept ++ [offer]) []

def toJson (offer : Offer) : Json :=
  .obj [("key", .str offer.key), ("field", .str offer.field), ("description", .str offer.description), ("value", offer.value)]

end Offer

namespace Schema

/-- One offer for each variant: of elements under the tag itself, of a field under field and tag. -/
def variantOffers (schema : Schema) (d : Discriminator) (field : String) (repeatable : Bool) : List Offer :=
  (schema.variants d).map fun (tag, variant) =>
    { key := if repeatable then tag else field ++ "-" ++ tag
      field
      description := Offer.sampleDescription field
      value := schema.template variant
      repeatable }

def fieldOffers (schema : Schema) (field : String) (node : Node) : List Offer :=
  match node.discriminator? with
  | some d => schema.variantOffers d field false
  | none => [⟨field, field, node.header.description.getD "", schema.template node, false⟩]

def sampleOffers (schema : Schema) (suffix parent : String) (sample : Node) : List Offer :=
  match sample.discriminator? with
  | some d => schema.variantOffers d parent true
  | none =>
    let key := parent ++ "-" ++ suffix
    [⟨key, key, Offer.sampleDescription parent, schema.template sample, true⟩]

def bodyOffers (schema : Schema) (suffix parent : String) (node : Node) : List Offer :=
  match node with
  | .object _ properties =>
    (properties.filter (!node.isReadOnly ·.1)).flatMap fun (field, child) => schema.fieldOffers field child
  | .array _ items _ _ => schema.sampleOffers suffix parent items
  | .map _ values => schema.sampleOffers suffix parent values
  | .scalar _ _ => []

/-- What a node offers for a value: the fields of the variant that the value selects, or the choice of a variant. -/
def nodeOffers (schema : Schema) (suffix parent : String) (node : Node) (value : Option Json) : List Offer :=
  match node.discriminator?, schema.selected? node value with
  | some d, none => schema.variantOffers d parent true
  | _, selected => schema.bodyOffers suffix parent (selected.getD node)

/-- The offers at a path. Fields that are in use are not offered, and no key is offered twice. -/
def offers (schema : Schema) (suffix group : String) (path : Path) (document : Json) : Except Refusal (List Offer) := do
  let node ← schema.nodeAt group path (some document)
  let value := document.at? path
  let parent := (path.getLast?.map Step.text).getD group
  let used := (value.map Json.usedKeys).getD []
  return Offer.distinct ((schema.nodeOffers suffix parent node value).filter fun offer =>
    offer.repeatable || !used.contains offer.field)

def insertKeys (schema : Schema) (suffix group : String) (path : Path) (document : Json) :
    Except Refusal (Entries String) := do
  return Entries.collect ((← schema.offers suffix group path document).map fun offer => (offer.key, offer.description))

def suggestions (schema : Schema) (group : String) (path : Path) (document : Option Json) : Except Refusal (List String) := do
  return (← schema.nodeAt group path document).allowed

end Schema

end SchemaGuide
