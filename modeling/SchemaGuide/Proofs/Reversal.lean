import SchemaGuide.Proofs.Insertion
import SchemaGuide.Proofs.RemovalCheck

/-! Accepting an offer and taking it back. The new member is the last of its object, so nothing takes its place when it goes;
and as no step of the path enters a tag, the nodes in force are the same before and after, so that the check of the removal
has only one thing to object to: that the field is required. -/

namespace SchemaGuide

namespace Json

/-- A member that has been added is taken away without a trace. -/
theorem removeAt_insertAt {document : Json} {path : Path} {members : Entries Json} {field : String}
    (stands : document.at? path = some (.obj members)) (absent : field ∉ Entries.keys members) (part : Json) :
    (document.insertAt path field part).removeAt (path ++ [.key field]) = document := by
  rw [removeAt_concat, insertAt, changeAt_changeAt]
  apply changeAt_eq_self
  intro value found
  cases stands.symm.trans found
  exact congrArg obj (Entries.swapErase_append_singleton absent part)

theorem tag?_adjustChild {property : String} {step : Step} (apart : step.text ≠ property) (value : Json)
    (change : Json → Json) : (value.adjustChild step change).tag? property = value.tag? property := by
  rw [tag?, member?_adjustChild, if_neg (Ne.symm apart), tag?]

end Json

namespace Schema

variable {schema : Schema} {node target : Node} {value : Json}

/-- The step does not name the property of a discriminator on the node. -/
def SparesTag (node : Node) (step : Step) : Prop := ∀ d, node.discriminator? = some d → step.text ≠ d.property

theorem governing_of_same_tag {changed : Json}
    (same : ∀ d, node.discriminator? = some d → changed.tag? d.property = value.tag? d.property) :
    schema.governing node (some changed) = schema.governing node (some value) := by
  unfold governing selected?
  cases has : node.discriminator? with
  | none => rfl
  | some d =>
    have tags := same d has
    simp only [Option.bind_eq_bind, Option.bind_some, tags]

/-- Navigation does not notice a change at the end of a path that enters no tag. -/
theorem descend_changeAt {path : Path} {part : Json} (apart : schema.Along (fun inner _ => SparesTag inner) node (some value) path)
    (stands : value.at? path = some part) (reached : schema.descend node (some value) path = .ok target)
    (change : Json → Json) : schema.descend node (some (value.changeAt path change)) path = .ok target := by
  induction path generalizing node value with
  | nil => exact reached
  | cons step rest ih =>
    obtain ⟨next, entered, reached⟩ := descend_cons_eq_ok_iff.mp reached
    obtain ⟨child, found, stands⟩ := Option.bind_eq_some_iff.mp stands
    have deeper := apart.tail entered
    rw [Option.bind_some, found] at deeper reached
    have still : schema.governing node (some (value.changeAt (step :: rest) change)) = schema.governing node (some value) := by
      apply governing_of_same_tag
      intro d has
      exact Json.tag?_adjustChild (apart.head d has) value _
    apply descend_cons_eq_ok_iff.mpr
    refine ⟨next, still ▸ entered, ?_⟩
    rw [Option.bind_some, Json.changeAt, Json.child?_adjustChild, found]
    exact ih deeper stands reached

/-- A new member that the governing node has not marked leaves this node in force. -/
theorem governing_append {members : Entries Json} {field : String}
    (marked : schema.MarkedVariants)
    (settled : schema.Settled node (some (.obj members)))
    (unmarked : (schema.governing node (some (.obj members))).isReadOnly field = false)
    (absent : field ∉ Entries.keys members) (part : Json) :
    schema.governing node (some (.obj (members ++ [(field, part)]))) = schema.governing node (some (.obj members)) := by
  apply governing_of_same_tag
  intro d has
  -- The variant in force has the property of its tag marked, so the new field is another one.
  have apart : d.property ≠ field := by
    rcases settled with plain | selected
    · cases plain.symm.trans has
    · obtain ⟨variant, selected⟩ := Option.isSome_iff_exists.mp selected
      obtain ⟨other, _, tag, same, _, _, led⟩ := selected?_eq_some_iff.mp selected
      cases has.symm.trans same
      rw [governing, selected, Option.getD_some] at unmarked
      intro names
      subst names
      cases unmarked.symm.trans (marked d tag variant led)
  rw [Json.tag?, Json.member?_append absent, if_neg apart, Json.tag?]

/-- An object lets any field go that is neither a tag nor marked nor required. -/
theorem removable_object {header : Header} {properties : Entries Node} {field : String} {child : Node}
    (plain : (Node.object header properties).discriminator? = none)
    (unmarked : (Node.object header properties).isReadOnly field = false) (declared : properties.lookup field = some child)
    (given : Option Json) : removable (.object header properties) given (.key field) =
      if child.isRequired then .error (some .requiredField) else .ok () := by
  have own : header.discriminator = none := plain
  simp [removable, Step.text, own, unmarked, declared]

/-- The check of a removal after the insertion of a field that the object declares, has not marked and did not have. -/
theorem checkRemoval_insertAt (plain : schema.PlainVariants)
    (marked : schema.MarkedVariants) {group : String}
    {root child : Node} {document : Json} {path : Path} {members : Entries Json} {header : Header} {properties : Entries Node}
    {field : String} (known : schema.definition? group = some root)
    (apart : schema.Along (fun inner _ => SparesTag inner) root (some document) path)
    (reached : schema.descend root (some document) path = .ok node) (stands : document.at? path = some (.obj members))
    (settled : schema.Settled node (some (.obj members)))
    (governs : schema.governing node (some (.obj members)) = .object header properties)
    (declared : properties.lookup field = some child) (unmarked : (Node.object header properties).isReadOnly field = false)
    (absent : field ∉ Entries.keys members) (part : Json) :
    schema.checkRemoval group (document.insertAt path field part) (path ++ [.key field]) =
      if child.isRequired then .error (.refused ⟨group, path ++ [.key field], .requiredField⟩) else .ok () := by
  have own : (Node.object header properties).discriminator? = none := governs ▸ plain.governing_plain settled
  have inserted : (document.insertAt path field part).at? path = some (.obj (members ++ [(field, part)])) := by
    rw [Json.insertAt, Json.at?_changeAt, stands]
    rfl
  have rules : schema.governing node (some (.obj (members ++ [(field, part)]))) = .object header properties :=
    (governing_append marked settled (governs ▸ unmarked) absent part).trans governs
  have around : schema.nodeAt group path (some (document.insertAt path field part)) = .ok node :=
    nodeAt_eq_ok_iff.mpr ⟨root, known, descend_changeAt apart stands reached _⟩
  have entered : schema.enter? (.object header properties) (.key field) = some child :=
    (enter?_of_plain own _).trans declared
  have arrived : schema.nodeAt group (path ++ [.key field]) (some (document.insertAt path field part)) = .ok child := by
    refine nodeAt_append_eq_ok_iff.mpr ⟨node, around, ?_⟩
    rw [inserted]
    apply descend_singleton
    rw [rules]
    exact entered
  rw [checkRemoval_concat around arrived, inserted, rules, removable_object own unmarked declared]
  cases child.isRequired <;> rfl

end Schema

namespace Editor

/-- Whatever is offered as a field of an object can be accepted and taken back, required fields apart, and what is left is
the document as it was. -/
theorem removal_insertAt_offer {editor : Editor} {definitions : Entries Node} {document : Json} {path : Path}
    {root node : Node} {members : Entries Json} {header : Header} {properties : Entries Node}
    (built : editor.schema = Schema.build definitions) (fields : ∀ entry ∈ definitions, entry.2.WellFormed)
    (targets : PlainTargets definitions) (known : editor.schema.definition? editor.root = some root)
    (apart : editor.schema.Along (fun inner _ => Schema.SparesTag inner) root (some document) path)
    (reached : editor.nodeAt path (some document) = .ok node) (stands : document.at? path = some (.obj members))
    (governs : editor.schema.governing node (some (.obj members)) = .object header properties) :
    ∃ offers, editor.offers path document = .ok offers ∧ ∀ offer ∈ offers, offer.repeatable = false →
      ∃ child, properties.lookup offer.field = some child ∧
        editor.checkRemoval (document.insertAt path offer.field offer.value) (path ++ [.key offer.field]) =
          (if child.isRequired then .error (.refused ⟨editor.root, path ++ [.key offer.field], .requiredField⟩) else .ok ()) ∧
        (document.insertAt path offer.field offer.value).removeAt (path ++ [.key offer.field]) = document := by
  have plain : editor.schema.PlainVariants := built ▸ Schema.plainVariants_build targets
  have marked : editor.schema.MarkedVariants := built ▸ Schema.markedVariants_build definitions
  have variants : editor.schema.WellFormedVariants := built ▸ Schema.wellFormedVariants_build fields
  have rootFields : root.WellFormed := Schema.wellFormed_of_definition? fields (built ▸ known)
  have reached : editor.schema.nodeAt editor.root path (some document) = .ok node := reached
  have walked : editor.schema.descend root (some document) path = .ok node := by
    obtain ⟨other, same, walked⟩ := Schema.nodeAt_eq_ok_iff.mp reached
    cases known.symm.trans same
    exact walked
  have ruleFields := Schema.wellFormed_governing (Schema.wellFormed_of_descend variants rootFields walked) variants
    (some (.obj members))
  rw [governs] at ruleFields
  obtain ⟨offers, parent, made, origin, _⟩ := Schema.offers_of_nodeAt reached
  refine ⟨offers, made, ?_⟩
  intro offer member once
  obtain ⟨offered, free⟩ := origin offer member
  rw [stands] at offered free
  have absent : offer.field ∉ Entries.keys members := free once
  rcases editor.schema.settled_or_unselected node (some (.obj members)) with settled | ⟨d, has, unselected⟩
  · rw [Schema.nodeOffers_of_settled settled, governs] at offered
    obtain ⟨child, listed, unmarked, _⟩ := Schema.mem_bodyOffers_object.mp offered
    have declared := (ruleFields header properties .here).lookup_of_mem listed
    refine ⟨child, declared, ?_, Json.removeAt_insertAt stands absent offer.value⟩
    exact Schema.checkRemoval_insertAt plain marked known apart walked stands settled governs declared unmarked absent
      offer.value
  · -- The variants of an open choice are offered however often.
    rw [Schema.nodeOffers_of_unselected has unselected] at offered
    obtain ⟨_, _, _, _, rfl⟩ := Schema.mem_variantOffers.mp offered
    cases once

def drawer : Node := .scalar { discriminator := some ⟨"kind", [("shirt", "#/definitions/shirt")]⟩ } Node.anyString

def wardrobe : Entries Node :=
  let label : Node := .object {} [("size", .scalar { required := true } Node.anyString), ("color", .scalar {} Node.anyString)]
  [("wardrobe", .object {} [("drawers", .array {} drawer none none)]), ("shirt", .object {} [("label", label)])]

def closet : Json :=
  .obj [("drawers", .arr [.null, .obj [("label", .obj [("torn", .bool true)]), ("kind", .str "shirt")]]), ("key", .null)]

/-- The color of a shirt can be taken back and its size must stay; without it the closet is as it was. -/
theorem removal_insertAt_offer_wardrobe :
    let editor : Editor := ⟨Schema.build wardrobe, "wardrobe", standardSuffix⟩
    let label : Path := [.key "drawers", .index 1, .key "label"]
    ∃ offers, editor.offers label closet = .ok offers ∧ offers.map Offer.field = ["size", "color"] ∧
      editor.checkRemoval (closet.insertAt label "size" (.str "")) (label ++ [.key "size"]) =
        .error (.refused ⟨"wardrobe", label ++ [.key "size"], .requiredField⟩) ∧
      (closet.insertAt label "size" (.str "")).removeAt (label ++ [.key "size"]) = closet ∧
      editor.checkRemoval (closet.insertAt label "color" (.str "")) (label ++ [.key "color"]) = .ok () ∧
      (closet.insertAt label "color" (.str "")).removeAt (label ++ [.key "color"]) = closet := by
  intro editor label
  have fields : ∀ entry ∈ wardrobe, entry.2.WellFormed := by simp [wardrobe, drawer, Entries.Distinct, Entries.keys]
  have apart : editor.schema.Along (fun inner _ => Schema.SparesTag inner)
      (.object {} [("drawers", .array {} drawer none none)]) (some closet) label := by
    intro before step after inner split reached d has
    have split : [Step.key "drawers", .index 1, .key "label"] = before ++ step :: after := split
    rcases before with _ | ⟨first, _ | ⟨second, _ | ⟨third, before⟩⟩⟩
    · cases reached
      cases has
    · cases split
      cases reached
      cases has
    · cases split
      cases reached
      cases has
      decide
    · simp at split
  have reached : editor.nodeAt label (some closet) = .ok (.object {} _) := rfl
  obtain ⟨offers, made, reversed⟩ := removal_insertAt_offer rfl fields (by decide) rfl apart reached rfl rfl
  cases made
  obtain ⟨_, declared, kept, size⟩ := reversed _ (.head _) rfl
  cases declared
  obtain ⟨_, declared, freed, color⟩ := reversed _ (.tail _ (.head _)) rfl
  cases declared
  exact ⟨_, rfl, rfl, kept, size, freed, color⟩

end Editor

end SchemaGuide
