import SchemaGuide.Node.Occurrence
import SchemaGuide.Schema.Basic

/-!
One pass over a table of definitions, nodes before those below them: which tags are in use, and which defects the
nodes have.
-/

namespace SchemaGuide

/-- A mapping entry without a definition, and the place of its discriminator. -/
structure LostTag where
  definition : String
  location : Location
  tag : String
  target : String

def LostTag.defect (lost : LostTag) : Defect :=
  .unresolved lost.definition lost.location.shown lost.tag lost.target

structure Site where
  definition : String
  location : Location
  node : Node

namespace Survey

def sites (definitions : Entries Node) : List Site :=
  definitions.flatMap fun (name, node) => node.occurrences.map fun (location, inner) => ⟨name, location, inner⟩

def targets (site : Site) : List (String × String) :=
  (site.node.discriminator?.map Discriminator.targets).getD []

def tagUsesAt (names : List String) (site : Site) : List TagUse :=
  match site.node.discriminator? with
  | none => []
  | some d => (d.targets.filter (names.contains ·.2)).map fun (tag, target) => ⟨target, d.property, tag⟩

def lostTagsAt (names : List String) (site : Site) : List LostTag :=
  ((targets site).filter (!names.contains ·.2)).map fun (tag, target) => ⟨site.definition, site.location, tag, target⟩

def emptyMappingAt (site : Site) : List Defect :=
  match site.node.discriminator? with
  | none => []
  | some d => if d.mapping.isEmpty then [.withoutTags site.definition site.location.shown d.property] else []

def negativeAt (site : Site) (code : Defect.Code) (bound : Option Int) : List Defect :=
  match bound with
  | none => []
  | some bound => if bound < 0 then [.negativeBound site.definition site.location.shown code bound] else []

def boundsAt (site : Site) : List Defect :=
  match site.node with
  | .array _ _ minItems maxItems => negativeAt site .negativeMinItems minItems ++ negativeAt site .negativeMaxItems maxItems
  | _ => []

def defectsAt (names : List String) (site : Site) : List Defect :=
  emptyMappingAt site ++ (lostTagsAt names site).map LostTag.defect ++ boundsAt site

def tagUses (definitions : Entries Node) : List TagUse :=
  ((sites definitions).flatMap (tagUsesAt (Entries.keys definitions))).eraseDups

def lostTags (definitions : Entries Node) : List LostTag :=
  (sites definitions).flatMap (lostTagsAt (Entries.keys definitions))

def defects (definitions : Entries Node) : List Defect :=
  (sites definitions).flatMap (defectsAt (Entries.keys definitions))

end Survey

end SchemaGuide
