import SchemaGuide.Proofs.Occurrence
import SchemaGuide.Schema.Build

/-! What a schema holds once it is built. All marks are made before any variant, so a variant never depends on the
order in which discriminators come; and the tags in use are those of all discriminators at any depth, so no node of the
schema, be it in a definition or in a variant, has a tag whose variant was forgotten. -/

namespace SchemaGuide

/-- Some discriminator, at any depth of some definition, has the tag. -/
def TagUse.Occurs (definitions : Entries Node) (use : TagUse) : Prop :=
  ∃ entry ∈ definitions, ∃ d : Discriminator,
    entry.2.Carries d ∧ d.property = use.property ∧ (use.tag, use.target) ∈ d.targets

theorem Discriminator.mem_targets_of_target? {d : Discriminator} {tag target : String}
    (mapped : d.target? tag = some target) : (tag, target) ∈ d.targets := by
  obtain ⟨reference, found, rfl⟩ := Option.map_eq_some_iff.mp mapped
  exact List.mem_map.mpr ⟨(tag, reference), Entries.mem_of_lookup found, rfl⟩

namespace Node

def markAll (fields : List String) (node : Node) : Node := fields.foldl markReadOnly node

theorem isReadOnly_markAll {fields : List String} {node : Node} {other : String} :
    (node.markAll fields).isReadOnly other ↔ node.isReadOnly other ∨ other ∈ fields := by
  induction fields generalizing node with
  | nil => simp [markAll]
  | cons field fields ih =>
    rw [List.mem_cons, ← or_assoc, or_comm (b := other = field), ← isReadOnly_markReadOnly]
    exact ih

/-- Marks change nothing but the list of marks. -/
theorem markAll_eq_withHeader (fields : List String) (node : Node) :
    ∃ marks, node.markAll fields = node.withHeader { node.header with readOnly := marks } := by
  induction fields generalizing node with
  | nil => exact ⟨node.header.readOnly, (withHeader_header node).symm⟩
  | cons field fields ih =>
    obtain ⟨marks, same⟩ := ih (node.markReadOnly field)
    refine ⟨marks, same.trans ?_⟩
    rw [markReadOnly_eq_withHeader node field]
    simp only [withHeader_withHeader, header_withHeader]

@[simp] theorem discriminator?_markAll (fields : List String) (node : Node) :
    (node.markAll fields).discriminator? = node.discriminator? := by
  induction fields generalizing node with
  | nil => rfl
  | cons field fields ih => exact (ih _).trans (discriminator?_markReadOnly node field)

@[simp] theorem kind_markAll (fields : List String) (node : Node) : (node.markAll fields).kind = node.kind := by
  induction fields generalizing node with
  | nil => rfl
  | cons field fields ih => exact (ih _).trans (kind_markReadOnly node field)

theorem carries_of_markAll {fields : List String} {node : Node} {d : Discriminator}
    (carried : (node.markAll fields).Carries d) : node.Carries d := by
  induction fields generalizing node with
  | nil => exact carried
  | cons field fields ih => exact carries_of_markReadOnly (ih carried)

theorem WellFormed.markAll {node : Node} (wellFormed : node.WellFormed) (fields : List String) :
    (node.markAll fields).WellFormed := by
  induction fields generalizing node with
  | nil => exact wellFormed
  | cons field fields ih => exact ih (wellFormed.markReadOnly field)

end Node

namespace Survey

theorem mem_sites_iff {definitions : Entries Node} {site : Site} :
    site ∈ sites definitions ↔
      ∃ entry ∈ definitions, site.definition = entry.1 ∧ (site.location, site.node) ∈ entry.2.occurrences := by
  constructor
  · intro member
    obtain ⟨entry, present, member⟩ := List.mem_flatMap.mp member
    obtain ⟨⟨location, node⟩, listed, rfl⟩ := List.mem_map.mp member
    exact ⟨entry, present, rfl, listed⟩
  · rintro ⟨entry, present, same, listed⟩
    refine List.mem_flatMap.mpr ⟨entry, present, List.mem_map.mpr ⟨_, listed, ?_⟩⟩
    rw [← same]

theorem site_with_discriminator_iff {definitions : Entries Node} {d : Discriminator} :
    (∃ site ∈ sites definitions, site.node.discriminator? = some d) ↔ ∃ entry ∈ definitions, entry.2.Carries d := by
  constructor
  · rintro ⟨site, member, has⟩
    obtain ⟨entry, present, _, listed⟩ := mem_sites_iff.mp member
    exact ⟨entry, present, site.node, Node.mem_occurrences_iff.mp ⟨_, listed⟩, has⟩
  · rintro ⟨entry, present, inner, inside, has⟩
    obtain ⟨location, listed⟩ := Node.mem_occurrences_iff.mpr inside
    exact ⟨⟨entry.1, location, inner⟩, mem_sites_iff.mpr ⟨entry, present, rfl, listed⟩, has⟩

private theorem mem_tagUsesAt_iff {names : List String} {site : Site} {use : TagUse} :
    use ∈ tagUsesAt names site ↔ use.target ∈ names ∧
      ∃ d, site.node.discriminator? = some d ∧ d.property = use.property ∧ (use.tag, use.target) ∈ d.targets := by
  unfold tagUsesAt
  cases site.node.discriminator? with
  | none => simp
  | some d =>
    constructor
    · intro member
      obtain ⟨⟨tag, target⟩, kept, rfl⟩ := List.mem_map.mp member
      obtain ⟨mapped, known⟩ := List.mem_filter.mp kept
      exact ⟨by simpa using known, d, rfl, rfl, mapped⟩
    · rintro ⟨known, _, same, property, mapped⟩
      cases same
      refine List.mem_map.mpr ⟨(use.tag, use.target), List.mem_filter.mpr ⟨mapped, by simpa using known⟩, ?_⟩
      rw [property]

/-- The tags in use are those that some discriminator maps to a definition. -/
theorem mem_tagUses_iff {definitions : Entries Node} {use : TagUse} :
    use ∈ tagUses definitions ↔ use.target ∈ Entries.keys definitions ∧ use.Occurs definitions := by
  rw [tagUses, List.mem_eraseDups, List.mem_flatMap]
  constructor
  · rintro ⟨site, member, used⟩
    obtain ⟨known, d, has, property, mapped⟩ := mem_tagUsesAt_iff.mp used
    obtain ⟨entry, present, carried⟩ := site_with_discriminator_iff.mp ⟨site, member, has⟩
    exact ⟨known, entry, present, d, carried, property, mapped⟩
  · rintro ⟨known, entry, present, d, carried, property, mapped⟩
    obtain ⟨site, member, has⟩ := site_with_discriminator_iff.mpr ⟨entry, present, carried⟩
    exact ⟨site, member, mem_tagUsesAt_iff.mpr ⟨known, d, has, property, mapped⟩⟩

end Survey

namespace Schema

/-- The variant that a tag should have: the definition that the tag is mapped to, carrying the tag. -/
def mapped? (schema : Schema) (d : Discriminator) (tag : String) : Option Node :=
  (d.target? tag).bind fun target => (schema.definition? target).map (·.tagged d.property tag)

/-- The node stands in a definition or in a variant, at any depth. -/
def Holds (schema : Schema) (node : Node) : Prop :=
  (∃ entry ∈ schema.definitions, Node.Within node entry.2) ∨ ∃ entry ∈ schema.tagged, Node.Within node entry.2

theorem Holds.of_within {schema : Schema} {inner node : Node} (held : schema.Holds node)
    (inside : Node.Within inner node) : schema.Holds inner := by
  rcases held with ⟨entry, member, outside⟩ | ⟨entry, member, outside⟩
  · exact .inl ⟨entry, member, inside.trans outside⟩
  · exact .inr ⟨entry, member, inside.trans outside⟩

theorem holds_of_variant? {schema : Schema} {d : Discriminator} {tag : String} {variant : Node}
    (selected : schema.variant? d tag = some variant) : schema.Holds variant := by
  obtain ⟨target, _, found⟩ := Option.bind_eq_some_iff.mp selected
  obtain ⟨before, after, entries, _⟩ := List.lookup_eq_some_iff.mp found
  exact .inr ⟨(⟨target, d.property, tag⟩, variant), by simp [entries], .here⟩

theorem holds_of_definition? {schema : Schema} {name : String} {node : Node}
    (found : schema.definition? name = some node) : schema.Holds node :=
  .inl ⟨(name, node), Entries.mem_of_lookup found, .here⟩

def tagFields (definitions : Entries Node) (name : String) : List String :=
  ((Survey.tagUses definitions).filter (·.target = name)).map TagUse.property

theorem lookup_marked (definitions : Entries Node) (uses : List TagUse) (name : String) :
    (marked definitions uses).lookup name =
      (definitions.lookup name).map (Node.markAll ((uses.filter (·.target = name)).map TagUse.property)) := by
  induction uses generalizing definitions with
  | nil => exact Option.map_id'.symm
  | cons use uses ih =>
    have step := ih (Entries.adjust use.target (·.markReadOnly use.property) definitions)
    rw [Entries.lookup_adjust] at step
    refine step.trans ?_
    by_cases same : use.target = name
    · simp only [same, if_true, decide_true, List.filter_cons_of_pos, List.map_cons, Option.map_map]
      rfl
    · rw [if_neg (Ne.symm same), List.filter_cons_of_neg (by simpa using same)]

private theorem mem_marked {definitions : Entries Node} {uses : List TagUse} {entry : String × Node}
    (member : entry ∈ marked definitions uses) :
    ∃ node fields, (entry.1, node) ∈ definitions ∧ entry.2 = node.markAll fields := by
  induction uses generalizing definitions with
  | nil => exact ⟨entry.2, [], member, rfl⟩
  | cons use uses ih =>
    obtain ⟨node, fields, earlier, same⟩ := ih member
    rcases Entries.mem_adjust earlier with first | ⟨old, found, changed⟩
    · exact ⟨node, fields, first, same⟩
    · cases entry
      cases changed
      exact ⟨old, use.property :: fields, Entries.mem_of_lookup found, same⟩

theorem keys_marked (definitions : Entries Node) (uses : List TagUse) :
    Entries.keys (marked definitions uses) = Entries.keys definitions := by
  induction uses generalizing definitions with
  | nil => rfl
  | cons use uses ih => exact (ih _).trans (Entries.keys_adjust _ _ _)

theorem lookup_variantTable (definitions : Entries Node) (uses : List TagUse) (use : TagUse) :
    (variantTable definitions uses).lookup use =
      if use ∈ uses then (definitions.lookup use.target).map (·.tagged use.property use.tag) else none := by
  induction uses with
  | nil => rfl
  | cons first uses ih =>
    by_cases same : use = first
    · subst same
      cases found : definitions.lookup use.target with
      | none => simpa [variantTable, found] using ih
      | some node => simp [variantTable, found]
    · have skipped : (variantTable definitions (first :: uses)).lookup use = (variantTable definitions uses).lookup use := by
        cases found : definitions.lookup first.target with
        | none => simp [variantTable, found]
        | some node => simp [variantTable, found, List.lookup_cons, beq_false_of_ne same]
      simp only [skipped, ih, List.mem_cons, same, false_or]

variable (definitions : Entries Node)

@[simp] theorem names_build : (build definitions).names = Entries.keys definitions := keys_marked definitions _

theorem definition?_build (name : String) :
    (build definitions).definition? name = (definitions.lookup name).map (Node.markAll (tagFields definitions name)) :=
  lookup_marked definitions _ name

variable {definitions}

theorem mem_tagFields {name field : String} (known : name ∈ Entries.keys definitions) :
    field ∈ tagFields definitions name ↔ ∃ tag, TagUse.Occurs definitions ⟨name, field, tag⟩ := by
  simp only [tagFields, List.mem_map, List.mem_filter, decide_eq_true_eq]
  constructor
  · rintro ⟨⟨target, property, tag⟩, ⟨used, rfl⟩, rfl⟩
    exact ⟨tag, (Survey.mem_tagUses_iff.mp used).2⟩
  · rintro ⟨tag, occurs⟩
    exact ⟨⟨name, field, tag⟩, ⟨Survey.mem_tagUses_iff.mpr ⟨known, occurs⟩, rfl⟩, rfl⟩

/-- Every variant is a definition that carries a tag in use, whoever asks for it. -/
theorem variant?_build_eq_some {d : Discriminator} {tag : String} {variant : Node}
    (selected : (build definitions).variant? d tag = some variant) :
    ∃ target base, d.target? tag = some target ∧ ⟨target, d.property, tag⟩ ∈ Survey.tagUses definitions ∧
      (build definitions).definition? target = some base ∧ variant = base.tagged d.property tag := by
  obtain ⟨target, mapped, found⟩ := Option.bind_eq_some_iff.mp selected
  simp only [build, lookup_variantTable] at found
  split at found
  next used =>
    obtain ⟨base, known, rfl⟩ := Option.map_eq_some_iff.mp found
    exact ⟨target, base, mapped, used, known, rfl⟩
  · cases found

/-- No node of the schema has a discriminator that is not in some definition already. -/
theorem Holds.carried {node : Node} {d : Discriminator} (held : (build definitions).Holds node)
    (has : node.discriminator? = some d) : ∃ entry ∈ definitions, entry.2.Carries d := by
  have below : ∀ entry ∈ (build definitions).definitions, entry.2.Carries d → ∃ entry ∈ definitions, entry.2.Carries d := by
    intro entry member carried
    obtain ⟨node, fields, present, same⟩ := mem_marked member
    exact ⟨_, present, Node.carries_of_markAll (same ▸ carried)⟩
  rcases held with ⟨entry, member, inside⟩ | ⟨entry, member, inside⟩
  · exact below entry member ⟨node, inside, has⟩
  · obtain ⟨use, _, made⟩ := List.mem_filterMap.mp member
    obtain ⟨base, known, rfl⟩ := Option.map_eq_some_iff.mp made
    exact below (use.target, base) (Entries.mem_of_lookup known) (Node.carries_of_tagged ⟨node, inside, has⟩)

/-- In the schema, a tag has its variant as soon as the definition that it is mapped to exists. -/
theorem Holds.variant?_eq_mapped? {node : Node} {d : Discriminator} (held : (build definitions).Holds node)
    (has : node.discriminator? = some d) (tag : String) :
    (build definitions).variant? d tag = (build definitions).mapped? d tag := by
  cases mapped : d.target? tag with
  | none => simp [variant?, mapped?, mapped]
  | some target =>
    simp only [variant?, mapped?, mapped, Option.bind_some]
    by_cases known : target ∈ Entries.keys definitions
    · obtain ⟨entry, member, carried⟩ := held.carried has
      have used : ⟨target, d.property, tag⟩ ∈ Survey.tagUses definitions :=
        Survey.mem_tagUses_iff.mpr
          ⟨known, entry, member, d, carried, rfl, Discriminator.mem_targets_of_target? mapped⟩
      simp only [build, lookup_variantTable, if_pos used]
      rfl
    · have absent : (build definitions).definition? target = none := by
        rw [definition?_build, Entries.lookup_eq_none_iff.mpr known, Option.map_none]
      rw [absent, Option.map_none]
      cases found : (build definitions).tagged.lookup ⟨target, d.property, tag⟩ with
      | none => rfl
      | some variant =>
        have selected : (build definitions).variant? d tag = some variant := by
          simp [variant?, mapped, found]
        obtain ⟨other, base, same, _, present, _⟩ := variant?_build_eq_some selected
        cases mapped.symm.trans same
        simp [absent] at present

/-- A tag has a variant just when the definition that it is mapped to exists. -/
theorem Holds.variant?_isSome_iff {node : Node} {d : Discriminator} (held : (build definitions).Holds node)
    (has : node.discriminator? = some d) (tag : String) : ((build definitions).variant? d tag).isSome ↔
      ∃ target, d.target? tag = some target ∧ target ∈ (build definitions).names := by
  rw [held.variant?_eq_mapped? has]
  cases mapped : d.target? tag with
  | none => simp [mapped?, mapped]
  | some target => simp [mapped?, mapped, names, definition?, ← Entries.lookup_isSome_iff]

theorem isReadOnly_of_mem_tagUses {target property tag : String} {base : Node}
    (used : ⟨target, property, tag⟩ ∈ Survey.tagUses definitions)
    (found : (build definitions).definition? target = some base) : base.isReadOnly property := by
  rw [definition?_build] at found
  obtain ⟨node, _, rfl⟩ := Option.map_eq_some_iff.mp found
  exact Node.isReadOnly_markAll.mpr (.inr (List.mem_map.mpr ⟨_, List.mem_filter.mpr ⟨used, by simp⟩, rfl⟩))

end Schema

/-- The second node is the first with the field that pins a tag, put in the place of an older field of that name or
else at the end. Only objects take the field. -/
inductive Node.Pins (property tag : String) : Node → Node → Prop where
  | replaced {header : Header} {before after : Entries Node} {old : Node} (first : property ∉ Entries.keys before) :
      Pins property tag (.object header (before ++ (property, old) :: after))
        (.object header (before ++ (property, tagField tag) :: after))
  | appended {header : Header} {properties : Entries Node} (absent : property ∉ Entries.keys properties) :
      Pins property tag (.object header properties) (.object header (properties ++ [(property, tagField tag)]))
  | kept {node : Node} (plain : node.kind ≠ .object) : Pins property tag node node

theorem Node.pins_tagged {node : Node} {property : String} (marked : node.isReadOnly property) (tag : String) :
    node.Pins property tag (node.tagged property tag) := by
  unfold tagged
  rw [markReadOnly_of_isReadOnly marked]
  cases node with
  | object header properties =>
    by_cases present : property ∈ Entries.keys properties
    · obtain ⟨before, old, after, rfl, first, changed⟩ := Entries.put_of_mem (tagField tag) present
      simpa only [changed] using! Pins.replaced first
    · simpa only [Entries.put_of_notMem (tagField tag) present] using! Pins.appended present
  | array | map => exact .kept (by simp [kind])
  | scalar header form => exact .kept (by cases form <;> simp [kind, Scalar.kind])

/-- A built schema is the closure of its table under tags. A definition changes in its marks alone, and a discriminator
of any node in it, variants included, has the variants that its mapping promises and no others. -/
theorem Schema.build_tag_closure (definitions : Entries Node) :
    (build definitions).names = Entries.keys definitions ∧
    (∀ name node, definitions.lookup name = some node → ∃ marks : List String,
      (build definitions).definition? name = some (node.withHeader { node.header with readOnly := marks }) ∧
      ∀ field, field ∈ marks ↔
        field ∈ node.header.readOnly ∨ ∃ tag, TagUse.Occurs definitions ⟨name, field, tag⟩) ∧
    ∀ node d, (build definitions).Holds node → node.discriminator? = some d → ∀ tag,
      (((build definitions).variant? d tag).isSome ↔
        ∃ target, d.target? tag = some target ∧ target ∈ (build definitions).names) ∧
      ∀ variant, (build definitions).variant? d tag = some variant → ∃ target final,
        d.target? tag = some target ∧ (build definitions).definition? target = some final ∧
        final.Pins d.property tag variant := by
  refine ⟨names_build definitions, ?_, ?_⟩
  · intro name node found
    have known : name ∈ Entries.keys definitions := Entries.lookup_isSome_iff.mp (by simp [found])
    obtain ⟨marks, changed⟩ := node.markAll_eq_withHeader (tagFields definitions name)
    refine ⟨marks, by rw [definition?_build, found, Option.map_some, changed], fun field => ?_⟩
    have listed : (node.markAll (tagFields definitions name)).isReadOnly field ↔ _ := Node.isReadOnly_markAll
    simpa only [changed, Node.isReadOnly, Node.header_withHeader, List.contains_iff_mem, mem_tagFields known] using listed
  · intro node d held has tag
    constructor
    · exact held.variant?_isSome_iff has tag
    · intro variant selected
      obtain ⟨target, base, mapped, used, found, rfl⟩ := variant?_build_eq_some selected
      exact ⟨target, base, mapped, found, Node.pins_tagged (isReadOnly_of_mem_tagUses used found) tag⟩

namespace Schema

def byKind : Discriminator := ⟨"kind", [("leaf", "#/definitions/leaf"), ("gone", "nowhere")]⟩

def byType : Discriminator := ⟨"type", [("l", "leaf")]⟩

def branch : Node := .scalar { discriminator := some byKind } Node.anyString

/-- Two discriminators share a target, which declares the property of one of them and refers back to itself. -/
def sharedLeaf : Entries Node :=
  [("tree", .array { discriminator := some byType } (.map { discriminator := some byKind } branch) none none),
    ("leaf", .object {} [("kind", .scalar {} Node.anyNumber), ("below", branch)])]

/-- The closure of `sharedLeaf`: the leaf is marked for both discriminators, and a tag inside the leaf leads to the leaf
itself with its own field for the tag replaced. -/
theorem build_tag_closure_sharedLeaf :
    (build sharedLeaf).Holds branch ∧ branch.discriminator? = some byKind ∧
    (∃ marks : List String, (build sharedLeaf).definition? "leaf" =
      some (.object { readOnly := marks } [("kind", .scalar {} Node.anyNumber), ("below", branch)]) ∧
      "type" ∈ marks) ∧
    (∃ variant, (build sharedLeaf).variant? byKind "leaf" = some variant ∧
      ∃ final, (build sharedLeaf).definition? "leaf" = some final ∧ final.Pins "kind" "leaf" variant) ∧
    (build sharedLeaf).variant? byKind "gone" = none := by
  obtain ⟨names, marked, closed⟩ := build_tag_closure sharedLeaf
  have held : (build sharedLeaf).Holds branch :=
    .inl ⟨("leaf", .object { readOnly := ["type", "kind"] } [("kind", .scalar {} Node.anyNumber), ("below", branch)]),
      .tail _ (.head _), .property (.tail _ (.head _)) .here⟩
  obtain ⟨marks, found, listed⟩ := marked "leaf" _ rfl
  have occurs : TagUse.Occurs sharedLeaf ⟨"leaf", "type", "l"⟩ :=
    ⟨_, .head _, byType, ⟨_, .here, rfl⟩, rfl, by decide⟩
  have present := (closed branch byKind held rfl "leaf").1.mpr ⟨"leaf", by decide, by decide⟩
  obtain ⟨variant, selected⟩ := Option.isSome_iff_exists.mp present
  obtain ⟨target, final, mapped, known, pinned⟩ := (closed branch byKind held rfl "leaf").2 variant selected
  have same : target = "leaf" := (Option.some.inj mapped).symm
  subst same
  refine ⟨held, rfl, ⟨marks, found, (listed "type").mpr (.inr ⟨"l", occurs⟩)⟩, ⟨variant, selected, final, known, pinned⟩, ?_⟩
  cases lost : (build sharedLeaf).variant? byKind "gone" with
  | none => rfl
  | some variant =>
    obtain ⟨target, mapped, known⟩ := (closed branch byKind held rfl "gone").1.mp (by rw [lost]; rfl)
    have same : target = "nowhere" := (Option.some.inj mapped).symm
    subst same
    exact absurd known (by decide)

end Schema

end SchemaGuide
