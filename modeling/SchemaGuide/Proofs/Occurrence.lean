import SchemaGuide.Node.Edit
import SchemaGuide.Node.Occurrence

/-! The nodes that a definition is made of, as a relation. A survey lists the same nodes with their places, but facts
about all of them are proved by induction on how a node stands inside another. -/

namespace SchemaGuide.Node

/-- `inner` is the node itself or stands below it, at any depth. -/
inductive Within (inner : Node) : Node → Prop where
  | here : Within inner inner
  | property {header : Header} {properties : List (String × Node)} {key : String} {child : Node}
      (declared : (key, child) ∈ properties) (below : Within inner child) : Within inner (.object header properties)
  | items {header : Header} {items : Node} {minItems maxItems : Option Int} (below : Within inner items) :
      Within inner (.array header items minItems maxItems)
  | values {header : Header} {values : Node} (below : Within inner values) : Within inner (.map header values)

theorem Within.trans {first second third : Node} (lower : Within first second) (upper : Within second third) :
    Within first third := by
  induction upper with
  | here => exact lower
  | property declared _ ih => exact .property declared ih
  | items _ ih => exact .items ih
  | values _ ih => exact .values ih

/-- `inner` stands at the location inside a node. -/
inductive At (inner : Node) : Location → Node → Prop where
  | here : At inner [] inner
  | property {header : Header} {properties : List (String × Node)} {key : String} {child : Node} {rest : Location}
      (declared : (key, child) ∈ properties) (below : At inner rest child) :
      At inner (.property key :: rest) (.object header properties)
  | items {header : Header} {items : Node} {minItems maxItems : Option Int} {rest : Location} (below : At inner rest items) :
      At inner (.items :: rest) (.array header items minItems maxItems)
  | values {header : Header} {values : Node} {rest : Location} (below : At inner rest values) :
      At inner (.values :: rest) (.map header values)

theorem within_iff_exists_at {inner node : Node} : Within inner node ↔ ∃ location, At inner location node := by
  constructor
  · intro inside
    induction inside with
    | here => exact ⟨[], .here⟩
    | property declared _ ih =>
      obtain ⟨rest, below⟩ := ih
      exact ⟨_, .property declared below⟩
    | items _ ih =>
      obtain ⟨rest, below⟩ := ih
      exact ⟨_, .items below⟩
    | values _ ih =>
      obtain ⟨rest, below⟩ := ih
      exact ⟨_, .values below⟩
  · rintro ⟨location, stands⟩
    induction stands with
    | here => exact .here
    | property declared _ ih => exact .property declared ih
    | items _ ih => exact .items ih
    | values _ ih => exact .values ih

private theorem mem_propertyOccurrences_iff {location : Location} {inner : Node} {properties : List (String × Node)} :
    (location, inner) ∈ propertyOccurrences properties ↔ ∃ key child rest, (key, child) ∈ properties ∧
      location = .property key :: rest ∧ (rest, inner) ∈ child.occurrences := by
  induction properties with
  | nil => simp [propertyOccurrences]
  | cons first others ih =>
    rw [propertyOccurrences, List.mem_append, ih]
    grind

/-- The survey of a definition lists every node at its location. -/
theorem mem_occurrences {location : Location} {inner node : Node} :
    (location, inner) ∈ node.occurrences ↔ At inner location node := by
  induction node generalizing location with
  | object header properties ih =>
    rw [occurrences, List.mem_cons, mem_propertyOccurrences_iff]
    constructor
    · rintro (same | ⟨key, child, rest, declared, rfl, listed⟩)
      · cases same
        exact .here
      · exact .property declared ((ih _ declared).mp listed)
    · intro stands
      cases stands with
      | here => exact .inl rfl
      | property declared below => exact .inr ⟨_, _, _, declared, rfl, (ih _ declared).mpr below⟩
  | array header items minItems maxItems ih =>
    rw [occurrences, List.mem_cons, List.mem_map]
    constructor
    · rintro (same | ⟨⟨rest, node⟩, listed, same⟩)
      · cases same
        exact .here
      · cases same
        exact .items (ih.mp listed)
    · intro stands
      cases stands with
      | here => exact .inl rfl
      | items below => exact .inr ⟨_, ih.mpr below, rfl⟩
  | map header values ih =>
    rw [occurrences, List.mem_cons, List.mem_map]
    constructor
    · rintro (same | ⟨⟨rest, node⟩, listed, same⟩)
      · cases same
        exact .here
      · cases same
        exact .values (ih.mp listed)
    · intro stands
      cases stands with
      | here => exact .inl rfl
      | values below => exact .inr ⟨_, ih.mpr below, rfl⟩
  | scalar header form =>
    rw [occurrences, List.mem_singleton]
    constructor
    · intro same
      cases same
      exact .here
    · intro stands
      cases stands
      rfl

/-- The survey of a definition lists exactly the nodes within it. -/
theorem mem_occurrences_iff {inner node : Node} :
    (∃ location, (location, inner) ∈ node.occurrences) ↔ Within inner node := by
  simp only [mem_occurrences, within_iff_exists_at]

/-- Some node of the definition, at any depth, has the discriminator. -/
def Carries (node : Node) (d : Discriminator) : Prop := ∃ inner, Within inner node ∧ inner.discriminator? = some d

theorem Carries.of_within {inner node : Node} {d : Discriminator} (carried : inner.Carries d)
    (inside : Within inner node) : node.Carries d := by
  obtain ⟨deepest, below, has⟩ := carried
  exact ⟨deepest, below.trans inside, has⟩

theorem discriminator?_of_not_carries {node : Node} (plain : ∀ d, ¬ node.Carries d) : node.discriminator? = none :=
  Option.eq_none_iff_forall_not_mem.mpr fun d has => plain d ⟨node, .here, has⟩

theorem not_carries_of_occurrences {node : Node} {d : Discriminator}
    (plain : ∀ occurrence ∈ node.occurrences, occurrence.2.discriminator? = none) : ¬ node.Carries d := by
  rintro ⟨inner, inside, has⟩
  obtain ⟨location, listed⟩ := mem_occurrences_iff.mpr inside
  rw [plain _ listed] at has
  cases has

/-- No object in the definition declares a field twice; fields are a map from names to nodes. -/
def WellFormed (node : Node) : Prop :=
  ∀ header properties, Within (.object header properties) node → Entries.Distinct properties

theorem WellFormed.of_within {inner node : Node} (wellFormed : node.WellFormed) (inside : Within inner node) :
    inner.WellFormed :=
  fun header properties below => wellFormed header properties (below.trans inside)

@[simp] theorem wellFormed_object {header : Header} {properties : List (String × Node)} :
    (object header properties).WellFormed ↔ Entries.Distinct properties ∧ ∀ entry ∈ properties, entry.2.WellFormed := by
  constructor
  · intro wellFormed
    exact ⟨wellFormed header properties .here, fun entry declared => wellFormed.of_within (.property declared .here)⟩
  · rintro ⟨distinct, below⟩ inner fields inside
    cases inside with
    | here => exact distinct
    | property declared deeper => exact below _ declared inner fields deeper

@[simp] theorem wellFormed_array {header : Header} {element : Node} {minItems maxItems : Option Int} :
    (array header element minItems maxItems).WellFormed ↔ element.WellFormed := by
  constructor
  · intro wellFormed
    exact wellFormed.of_within (.items .here)
  · intro wellFormed inner fields inside
    cases inside with
    | items deeper => exact wellFormed inner fields deeper

@[simp] theorem wellFormed_map {header : Header} {element : Node} :
    (map header element).WellFormed ↔ element.WellFormed := by
  constructor
  · intro wellFormed
    exact wellFormed.of_within (.values .here)
  · intro wellFormed inner fields inside
    cases inside with
    | values deeper => exact wellFormed inner fields deeper

@[simp] theorem wellFormed_scalar {header : Header} {form : Scalar} : (scalar header form).WellFormed := by
  intro inner fields inside
  cases inside

/-- Below a changed header the nodes are the same. -/
private theorem within_withHeader {inner node : Node} {header : Header} (inside : Within inner (node.withHeader header)) :
    inner = node.withHeader header ∨ Within inner node := by
  cases node with
  | object _ properties =>
    cases inside with
    | here => exact .inl rfl
    | property declared below => exact .inr (.property declared below)
  | array =>
    cases inside with
    | here => exact .inl rfl
    | items below => exact .inr (.items below)
  | map =>
    cases inside with
    | here => exact .inl rfl
    | values below => exact .inr (.values below)
  | scalar =>
    cases inside
    exact .inl rfl

theorem carries_of_markReadOnly {node : Node} {field : String} {d : Discriminator}
    (carried : (node.markReadOnly field).Carries d) : node.Carries d := by
  rw [markReadOnly_eq_withHeader] at carried
  obtain ⟨inner, inside, has⟩ := carried
  rcases within_withHeader inside with rfl | below
  · rw [← markReadOnly_eq_withHeader, discriminator?_markReadOnly] at has
    exact ⟨node, .here, has⟩
  · exact ⟨inner, below, has⟩

theorem WellFormed.markReadOnly {node : Node} (wellFormed : node.WellFormed) (field : String) :
    (node.markReadOnly field).WellFormed := by
  rw [markReadOnly_eq_withHeader]
  intro header properties inside
  rcases within_withHeader inside with same | below
  · cases node with
    | object own declared =>
      obtain ⟨_, fields⟩ := Node.object.inj same
      exact fields ▸ wellFormed own declared .here
    | array | map | scalar => cases same
  · exact wellFormed header properties below

/-- A tagged object is the marked one with one more field, or with that field in the place of an older one. -/
private theorem within_tagged {inner node : Node} {property tag : String} (inside : Within inner (node.tagged property tag)) :
    inner = node.tagged property tag ∨ inner = tagField tag ∨ Within inner (node.markReadOnly property) := by
  unfold tagged at inside ⊢
  split at inside
  next header properties marked =>
    rw [marked]
    cases inside with
    | here => exact .inl rfl
    | property declared below =>
      rcases Entries.mem_put declared with same | old
      · cases same
        cases below
        exact .inr (.inl rfl)
      · exact .inr (.inr (.property old below))
  · exact .inr (.inr inside)

/-- Tagging brings no discriminator into a definition. -/
theorem carries_of_tagged {node : Node} {property tag : String} {d : Discriminator}
    (carried : (node.tagged property tag).Carries d) : node.Carries d := by
  obtain ⟨inner, inside, has⟩ := carried
  suffices carried : (node.markReadOnly property).Carries d from carries_of_markReadOnly carried
  rcases within_tagged inside with rfl | rfl | below
  · exact ⟨_, .here, by simpa using has⟩
  · cases has
  · exact ⟨inner, below, has⟩

theorem WellFormed.tagged {node : Node} (wellFormed : node.WellFormed) (property tag : String) :
    (node.tagged property tag).WellFormed := by
  have marked := wellFormed.markReadOnly property
  intro header properties inside
  rcases within_tagged inside with same | same | below
  · unfold Node.tagged at same
    split at same
    next own declared shape =>
      obtain ⟨_, fields⟩ := Node.object.inj same
      exact fields ▸ Entries.Distinct.put (marked own declared (shape ▸ .here)) property (tagField tag)
    next shape _ =>
      exact marked header properties (same ▸ .here)
  · cases same
  · exact marked header properties below

end SchemaGuide.Node
