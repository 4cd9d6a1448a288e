import SchemaGuide.Proofs.TagClosure

/-! Which defects a built schema has. A node may be at fault on its own account, at any depth of a definition, and a
definition for the tags that others map to it. Each fault is recorded at its place, and nothing else is. -/

namespace SchemaGuide

/-- The place of a node as its steps are written one after another; only a definition itself has a name in their stead. -/
theorem Location.shown_eq (location : Location) :
    location.shown = if location = [] then "<root>" else String.join (location.map Descent.text) := by
  cases location with
  | nil => rfl
  | cons step rest =>
    have written : (Location.text (step :: rest)).isEmpty = false := by
      cases step <;> simp [text, Descent.text, String.join_cons]
    rw [shown, written, if_neg (List.cons_ne_nil step rest)]
    rfl

/-- What is wrong with a node on its own account, with the code and the wording of it. -/
inductive Node.Flawed (names : List String) : Node → Defect.Code → String → Prop where
  | minItems {header : Header} {items : Node} {bound : Int} {maxItems : Option Int} (negative : bound < 0) :
      Flawed names (.array header items (some bound) maxItems) .negativeMinItems
        ("invalid minItems configuration: " ++ bound.repr)
  | maxItems {header : Header} {items : Node} {minItems : Option Int} {bound : Int} (negative : bound < 0) :
      Flawed names (.array header items minItems (some bound)) .negativeMaxItems
        ("invalid maxItems configuration: " ++ bound.repr)
  | emptyMapping {node : Node} {d : Discriminator} (has : node.discriminator? = some d) (empty : d.mapping = []) :
      Flawed names node .emptyMapping ("discriminator on '" ++ d.property ++ "' has no mapping entries")
  | lostTag {node : Node} {d : Discriminator} {tag target : String} (has : node.discriminator? = some d)
      (mapped : (tag, target) ∈ d.targets) (absent : target ∉ names) :
      Flawed names node .unresolvedTarget
        ("discriminator tag '" ++ tag ++ "' maps to unknown definition '" ++ target ++ "'")

/-- What is wrong with a table of definitions, as it is reported. -/
inductive Flaw (definitions : Entries Node) : Defect → Prop where
  | node {name message : String} {root inner : Node} {location : Location} {code : Defect.Code}
      (declared : (name, root) ∈ definitions) (stands : Node.At inner location root)
      (flawed : inner.Flawed (Entries.keys definitions) code message) :
      Flaw definitions ⟨name, location.shown, code, message⟩
  | target {name property tag : String} {node : Node} (occurs : TagUse.Occurs definitions ⟨name, property, tag⟩)
      (found : definitions.lookup name = some node) (plain : node.kind ≠ .object) :
      Flaw definitions ⟨name, "<root>", .untaggableTarget,
        node.kind.word ++ " node cannot carry discriminator property '" ++ property ++ "'"⟩

namespace Survey

variable {names : List String} {site : Site} {defect : Defect}

theorem mem_emptyMappingAt : defect ∈ emptyMappingAt site ↔ ∃ d, site.node.discriminator? = some d ∧ d.mapping = [] ∧
    defect = .withoutTags site.definition site.location.shown d.property := by
  unfold emptyMappingAt
  cases site.node.discriminator? with
  | none => simp
  | some d => simp [List.isEmpty_iff]

theorem mem_lostTagsAt {lost : LostTag} : lost ∈ lostTagsAt names site ↔ ∃ d tag target,
    site.node.discriminator? = some d ∧ (tag, target) ∈ d.targets ∧ target ∉ names ∧
    lost = ⟨site.definition, site.location, tag, target⟩ := by
  unfold lostTagsAt targets
  cases site.node.discriminator? with
  | none => simp
  | some d =>
    constructor
    · intro listed
      obtain ⟨⟨tag, target⟩, kept, rfl⟩ := List.mem_map.mp listed
      obtain ⟨mapped, absent⟩ := List.mem_filter.mp kept
      exact ⟨d, tag, target, rfl, mapped, by simpa using absent, rfl⟩
    · intro found
      obtain ⟨_, tag, target, ⟨⟩, mapped, absent, rfl⟩ := found
      exact List.mem_map.mpr ⟨(tag, target), List.mem_filter.mpr ⟨mapped, by simpa using absent⟩, rfl⟩

theorem mem_negativeAt {code : Defect.Code} {limit : Option Int} : defect ∈ negativeAt site code limit ↔
    ∃ bound, limit = some bound ∧ bound < 0 ∧ defect = .negativeBound site.definition site.location.shown code bound := by
  unfold negativeAt
  cases limit <;> simp

theorem mem_defectsAt : defect ∈ defectsAt names site ↔ ∃ code message, site.node.Flawed names code message ∧
    defect = ⟨site.definition, site.location.shown, code, message⟩ := by
  rw [defectsAt, List.mem_append, List.mem_append, mem_emptyMappingAt, List.mem_map]
  constructor
  · intro listed
    obtain (⟨d, has, empty, rfl⟩ | ⟨lost, listed, rfl⟩) | bounded := listed
    · exact ⟨_, _, .emptyMapping has empty, rfl⟩
    · obtain ⟨d, tag, target, has, mapped, absent, rfl⟩ := mem_lostTagsAt.mp listed
      exact ⟨_, _, .lostTag has mapped absent, rfl⟩
    · unfold boundsAt at bounded
      split at bounded
      next header items minItems maxItems shape =>
        rcases List.mem_append.mp bounded with least | most
        · obtain ⟨bound, rfl, negative, rfl⟩ := mem_negativeAt.mp least
          exact ⟨_, _, shape ▸ .minItems negative, rfl⟩
        · obtain ⟨bound, rfl, negative, rfl⟩ := mem_negativeAt.mp most
          exact ⟨_, _, shape ▸ .maxItems negative, rfl⟩
      · cases bounded
  · intro described
    obtain ⟨code, message, flawed, rfl⟩ := described
    generalize shape : site.node = node at flawed
    cases flawed with
    | minItems negative =>
      right
      rw [boundsAt, shape]
      exact List.mem_append_left _ (mem_negativeAt.mpr ⟨_, rfl, negative, rfl⟩)
    | maxItems negative =>
      right
      rw [boundsAt, shape]
      exact List.mem_append_right _ (mem_negativeAt.mpr ⟨_, rfl, negative, rfl⟩)
    | emptyMapping has empty => exact .inl (.inl ⟨_, shape ▸ has, empty, rfl⟩)
    | lostTag has mapped absent =>
      exact .inl (.inr ⟨_, mem_lostTagsAt.mpr ⟨_, _, _, shape ▸ has, mapped, absent, rfl⟩, rfl⟩)

theorem mem_defects {definitions : Entries Node} : defect ∈ defects definitions ↔ ∃ name root inner location code message,
    (name, root) ∈ definitions ∧ Node.At inner location root ∧ inner.Flawed (Entries.keys definitions) code message ∧
    defect = ⟨name, location.shown, code, message⟩ := by
  rw [defects, List.mem_flatMap]
  constructor
  · intro surveyed
    obtain ⟨⟨name, location, inner⟩, visited, listed⟩ := surveyed
    obtain ⟨⟨_, root⟩, declared, rfl, occurs⟩ := mem_sites_iff.mp visited
    obtain ⟨code, message, flawed, rfl⟩ := mem_defectsAt.mp listed
    exact ⟨_, root, inner, location, code, message, declared, Node.mem_occurrences.mp occurs, flawed, rfl⟩
  · intro described
    obtain ⟨name, root, inner, location, code, message, declared, stands, flawed, rfl⟩ := described
    have visited : ⟨name, location, inner⟩ ∈ sites definitions :=
      mem_sites_iff.mpr ⟨(name, root), declared, rfl, Node.mem_occurrences.mpr stands⟩
    exact ⟨_, visited, mem_defectsAt.mpr ⟨code, message, flawed, rfl⟩⟩

end Survey

namespace Schema

variable {definitions : Entries Node} {defect : Defect}

theorem untaggableDefect?_eq_some_iff {use : TagUse} : untaggableDefect? definitions use = some defect ↔
    ∃ node, definitions.lookup use.target = some node ∧ node.kind ≠ .object ∧
      defect = .untaggable use.target node.kind.word use.property := by
  unfold untaggableDefect?
  cases definitions.lookup use.target with
  | none => simp
  | some node =>
    by_cases object : node.kind = .object
    · simp [Node.canCarryTag, object]
    · simpa [Node.canCarryTag, object] using eq_comm

theorem mem_untaggable : defect ∈ (Survey.tagUses definitions).filterMap (untaggableDefect? definitions) ↔
    ∃ name property tag node, TagUse.Occurs definitions ⟨name, property, tag⟩ ∧ definitions.lookup name = some node ∧
      node.kind ≠ .object ∧ defect = .untaggable name node.kind.word property := by
  rw [List.mem_filterMap]
  constructor
  · intro used
    obtain ⟨⟨name, property, tag⟩, used, made⟩ := used
    obtain ⟨node, found, plain, rfl⟩ := untaggableDefect?_eq_some_iff.mp made
    exact ⟨name, property, tag, node, (Survey.mem_tagUses_iff.mp used).2, found, plain, rfl⟩
  · intro described
    obtain ⟨name, property, tag, node, occurs, found, plain, rfl⟩ := described
    have known : name ∈ Entries.keys definitions := Entries.lookup_isSome_iff.mp (Option.isSome_of_eq_some found)
    exact ⟨⟨name, property, tag⟩, Survey.mem_tagUses_iff.mpr ⟨known, occurs⟩,
      untaggableDefect?_eq_some_iff.mpr ⟨node, found, plain, rfl⟩⟩

/-- A built schema lists its flaws, each of them once and nothing else, and each at its place. -/
theorem defects_build_iff_flaw (definitions : Entries Node) :
    (build definitions).defects.Nodup ∧
    (∀ defect, defect ∈ (build definitions).defects ↔ Flaw definitions defect) ∧
    ∀ location : Location,
      location.shown = if location = [] then "<root>" else String.join (location.map Descent.text) := by
  refine ⟨Defect.nodup_collect _, ?_, Location.shown_eq⟩
  intro defect
  simp only [build]
  rw [Defect.mem_collect, List.mem_append, Survey.mem_defects, mem_untaggable]
  constructor
  · intro recorded
    obtain ⟨_, _, _, _, _, _, declared, stands, flawed, rfl⟩ | ⟨_, _, _, _, occurs, found, plain, rfl⟩ := recorded
    · exact .node declared stands flawed
    · exact .target occurs found plain
  · intro flaw
    cases flaw with
    | node declared stands flawed => exact .inl ⟨_, _, _, _, _, _, declared, stands, flawed, rfl⟩
    | target occurs found plain => exact .inr ⟨_, _, _, _, occurs, found, plain, rfl⟩

/-- A yard whose gate has two bars, of which one is nowhere to be found and the other is no object. -/
def yard : Entries Node :=
  [("yard", .array {} (.scalar { discriminator := some ⟨"kind", []⟩ } Node.anyString) (some (-1)) none),
    ("gate", .map {} (.object { discriminator := some ⟨"lock", [("none", "bolt"), ("bar", "#/yard")]⟩ } []))]

example : (build yard).defects.map Defect.display =
    ["[E002] error: invalid minItems configuration: -1 (yard at <root>)",
      "[W002] warning: discriminator on 'kind' has no mapping entries (yard at [])",
      "[E001] error: discriminator tag 'none' maps to unknown definition 'bolt' (gate at [*])",
      "[W001] warning: array node cannot carry discriminator property 'lock' (yard at <root>)"] := by rfl

end Schema

end SchemaGuide
