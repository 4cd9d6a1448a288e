import SchemaGuide.Proofs.Governance
import SchemaGuide.Proofs.Validation
import SchemaGuide.Schema.Template

/-! Samples held against the nodes they are made of. The sample of an object has every declared field and no other, so
where a variant is sampled its tag stands in the field that pins it, and the sample selects this variant again. -/

namespace SchemaGuide

namespace Node

/-- The sample of a node, with what `expand` gives in place of a discriminated one. -/
def sampleWith (expand : Discriminator → Json) (node : Node) : Json :=
  match node.discriminator? with
  | some d => expand d
  | none => node.bodyTemplate expand

theorem fieldTemplates_eq_map (expand : Discriminator → Json) (properties : Entries Node) :
    fieldTemplates expand properties = properties.map fun entry => (entry.1, entry.2.sampleWith expand) := by
  induction properties with
  | nil => rfl
  | cons entry rest ih =>
    rw [fieldTemplates, ih]
    rfl

theorem bodyTemplate_object (expand : Discriminator → Json) (header : Header) (properties : Entries Node) :
    (object header properties).bodyTemplate expand =
      .obj (properties.map fun entry => (entry.1, entry.2.sampleWith expand)) := by
  rw [bodyTemplate, fieldTemplates_eq_map]

theorem bodyTemplate_array (expand : Discriminator → Json) (header : Header) (items : Node) (minItems maxItems : Option Int) :
    (array header items minItems maxItems).bodyTemplate expand =
      .arr (List.replicate (sampleCount minItems) (items.sampleWith expand)) := by
  rw [bodyTemplate]
  cases sampleCount minItems <;> rfl

end Node

namespace Schema

variable (schema : Schema) {header : Header} {properties : Entries Node}

theorem template_of_discriminator {node : Node} {d : Discriminator} (has : node.discriminator? = some d) :
    schema.template node = schema.expansion [] d := by
  rw [template, has]

theorem template_of_plain {node : Node} (plain : node.discriminator? = none) :
    schema.template node = node.bodyTemplate (schema.expansion []) := by
  rw [template, plain]

theorem template_object (plain : (Node.object header properties).discriminator? = none) :
    schema.template (.object header properties) = .obj (properties.map fun entry => (entry.1, schema.template entry.2)) := by
  rw [template_of_plain schema plain, Node.bodyTemplate_object]
  rfl

theorem template_array {items : Node} {minItems maxItems : Option Int}
    (plain : (Node.array header items minItems maxItems).discriminator? = none) :
    schema.template (.array header items minItems maxItems) =
      .arr (List.replicate (sampleCount minItems) (schema.template items)) := by
  rw [template_of_plain schema plain, Node.bodyTemplate_array]
  rfl

/-- The sample of an object has the sample of a field under its key. -/
theorem member?_template_object (plain : (Node.object header properties).discriminator? = none) (key : String) :
    (schema.template (.object header properties)).member? key = (properties.lookup key).map schema.template := by
  rw [template_object schema plain]
  exact Entries.lookup_map_value schema.template key properties

/-- The sample of an object lacks nothing and has no key that is not known. -/
theorem heldProblems_template_object (plain : (Node.object header properties).discriminator? = none) :
    schema.heldProblems (schema.template (.object header properties)) (.object header properties) =
      schema.declaredProblems (schema.template (.object header properties)) properties := by
  have keys : Entries.keys (schema.template (.object header properties)).entries = Entries.keys properties := by
    rw [template_object schema plain]
    exact List.map_map
  have unknown : unknownProblems (schema.template (.object header properties)) properties = [] := by
    rw [unknownProblems, keys, List.map_eq_nil_iff, List.filter_eq_nil_iff]
    intro key listed
    simp [listed]
  have complete : lacking (schema.template (.object header properties)) properties = [] := by
    rw [lacking, List.map_eq_nil_iff, List.filter_eq_nil_iff]
    intro entry listed
    have present : (properties.lookup entry.1).isNone = false := by
      rw [Option.isNone_eq_false_iff]
      exact Entries.lookup_isSome_iff.mpr (List.mem_map_of_mem listed)
    rw [member?_template_object schema plain, Option.isNone_map, present, Bool.and_false]
    exact Bool.false_ne_true
  rw [heldProblems_object, unknown, missingProblems_eq_nil_iff.mpr complete, List.append_nil, List.append_nil]

variable {schema}

/-- The sample of a variant, offered for its tag, selects this variant wherever the discriminator is, and its problems
there are those of the variant: none of the sample as a whole and none of its keys. -/
theorem template_selects_variant {definitions : Entries Node} (built : schema = build definitions) {d : Discriminator}
    {tag target : String} {node variant base : Node} (offered : (tag, variant) ∈ schema.variants d) (given : tag ≠ "")
    (mapped : d.target? tag = some target) (found : schema.definition? target = some base) (object : base.kind = .object)
    (plain : base.discriminator? = none) (carries : node.discriminator? = some d) :
    (schema.template variant).tag? d.property = some tag ∧
    schema.selected? node (some (schema.template variant)) = some variant ∧
    schema.problems (schema.template variant) node = schema.problems (schema.template variant) variant ∧
    ∀ problem ∈ schema.problems (schema.template variant) variant,
      problem.path ≠ [] ∧ ∀ key other, problem ≠ ⟨[.key key], .unknownKey other⟩ := by
  obtain ⟨_, led⟩ := mem_variants.mp offered
  have made : variant = base.tagged d.property tag := by
    subst built
    obtain ⟨_, _, same, _, known, made⟩ := variant?_build_eq_some led
    cases mapped.symm.trans same
    cases found.symm.trans known
    exact made
  have own : variant.discriminator? = none := by
    rw [made, Node.discriminator?_tagged]
    exact plain
  obtain ⟨header, properties, shape, pin⟩ := Node.pinned_tagged object d.property tag
  cases made.trans shape
  have tagged : (schema.template (.object header properties)).tag? d.property = some tag := by
    have pinned : schema.template (Node.tagField tag) = .str tag := rfl
    rw [Json.tag?, member?_template_object schema own, pin, Option.map_some, Option.bind_some, pinned, Json.asTag?]
    simp [Json.isTruthy, given]
  have selected : schema.selected? node (some (schema.template (.object header properties))) =
      some (.object header properties) := selected?_eq_some_iff.mpr ⟨d, _, tag, carries, rfl, tagged, led⟩
  have ruled : schema.problems (schema.template (.object header properties)) (.object header properties) =
      schema.declaredProblems (schema.template (.object header properties)) properties :=
    (problems_of_ruling schema (ruling_of_plain own greatestHops)).trans (heldProblems_template_object schema own)
  refine ⟨tagged, selected, ?_, ?_⟩
  · rw [problems_of_ruling schema (ruling_of_selected selected own), problems_of_ruling schema (ruling_of_plain own _)]
  · intro problem member
    rw [ruled] at member
    obtain ⟨entry, _, part, _, deeper, below, rfl⟩ := mem_declaredProblems.mp member
    refine ⟨List.cons_ne_nil _ _, ?_⟩
    intro key other same
    have root : deeper.path = [] := (List.cons.inj (congrArg Problem.path same)).2
    exact cause_ne_unknownKey_of_root below root other (congrArg Problem.cause same)

/-- A leaf that declares its tag as a number and has leaves below it. -/
theorem template_selects_variant_sharedLeaf : ∃ variant, ("leaf", variant) ∈ (build sharedLeaf).variants byKind ∧
    ((build sharedLeaf).template variant).tag? "kind" = some "leaf" ∧
    (build sharedLeaf).selected? branch (some ((build sharedLeaf).template variant)) = some variant ∧
    (build sharedLeaf).problems ((build sharedLeaf).template variant) branch =
      (build sharedLeaf).problems ((build sharedLeaf).template variant) variant := by
  have offered : ("leaf", _) ∈ (build sharedLeaf).variants byKind := .head _
  obtain ⟨tagged, selected, same, _⟩ :=
    template_selects_variant rfl offered (by decide) rfl rfl rfl rfl (show branch.discriminator? = some byKind from rfl)
  exact ⟨_, offered, tagged, selected, same⟩

end Schema

end SchemaGuide
