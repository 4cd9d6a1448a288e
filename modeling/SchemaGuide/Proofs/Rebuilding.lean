import SchemaGuide.Proofs.TagClosure

/-! Schemas built of the same definitions. The order of the definitions shows in nothing but the order of marks and of
defects, and a schema built of the definitions of a built one is that schema again: marks that are made already are not
made twice, and the survey does not see them. -/

namespace SchemaGuide

namespace Node

/-- The second node is the first with its marks in another order. The nodes below are the same. -/
def SameButMarks (node other : Node) : Prop :=
  ∃ marks : List String, List.Perm node.header.readOnly marks ∧
    other = node.withHeader { node.header with readOnly := marks }

theorem SameButMarks.isReadOnly_iff {node other : Node} (same : node.SameButMarks other) (field : String) :
    other.isReadOnly field ↔ node.isReadOnly field := by
  obtain ⟨marks, permuted, rfl⟩ := same
  simp [isReadOnly, permuted.mem_iff]

theorem SameButMarks.markReadOnly {node other : Node} (same : node.SameButMarks other) (field : String) :
    (node.markReadOnly field).SameButMarks (other.markReadOnly field) := by
  by_cases known : node.isReadOnly field
  · rwa [markReadOnly_of_isReadOnly known, markReadOnly_of_isReadOnly ((same.isReadOnly_iff field).mpr known)]
  · have unknown : ¬other.isReadOnly field := fun marked => known ((same.isReadOnly_iff field).mp marked)
    obtain ⟨marks, permuted, rfl⟩ := same
    rw [Node.markReadOnly, if_neg known, Node.markReadOnly, if_neg unknown]
    exact ⟨marks ++ [field], by simpa using permuted.append_right [field], by simp⟩

/-- Tags of permuted definitions make permuted variants. -/
theorem SameButMarks.tagged {node other : Node} (same : node.SameButMarks other) (property tag : String) :
    (node.tagged property tag).SameButMarks (other.tagged property tag) := by
  obtain ⟨marks, permuted, changed⟩ := same.markReadOnly property
  unfold Node.tagged
  rw [changed]
  cases shape : node.markReadOnly property with
  | object | array | map | scalar =>
    rw [shape] at permuted
    exact ⟨marks, permuted, rfl⟩

/-- Each field that is not marked yet is marked once, after the older marks. -/
theorem exists_added_marks (fields : List String) (node : Node) :
    ∃ added : List String, (node.markAll fields).header.readOnly = node.header.readOnly ++ added ∧ added.Nodup ∧
      ∀ field, field ∈ added ↔ field ∈ fields ∧ ¬node.isReadOnly field := by
  induction fields generalizing node with
  | nil => exact ⟨[], (List.append_nil _).symm, List.nodup_nil, by simp⟩
  | cons first rest ih =>
    obtain ⟨added, marks, distinct, listed⟩ := ih (node.markReadOnly first)
    simp only [isReadOnly_markReadOnly] at listed
    by_cases known : node.isReadOnly first
    · rw [markReadOnly_of_isReadOnly known] at marks
      refine ⟨added, ?_, distinct, fun field => ?_⟩
      · rwa [markAll, List.foldl_cons, markReadOnly_of_isReadOnly known]
      · rw [listed]
        grind
    · refine ⟨first :: added, ?_, List.nodup_cons.mpr ⟨fun again => ?_, distinct⟩, fun field => ?_⟩
      · have marked : (node.markReadOnly first).header.readOnly = node.header.readOnly ++ [first] := by
          rw [Node.markReadOnly, if_neg known, header_withHeader]
        rw [markAll, List.foldl_cons]
        exact marks.trans (by rw [marked, List.append_assoc, List.singleton_append])
      · exact ((listed first).mp again).2 (.inl rfl)
      · rw [List.mem_cons, listed]
        grind

/-- Only the order of the marks depends on the order in which they are made. -/
theorem sameButMarks_markAll {fields others : List String} (node : Node)
    (same : ∀ field, field ∈ fields ↔ field ∈ others) :
    (node.markAll fields).SameButMarks (node.markAll others) := by
  obtain ⟨first, firstMarks, firstDistinct, firstListed⟩ := node.exists_added_marks fields
  obtain ⟨second, secondMarks, secondDistinct, secondListed⟩ := node.exists_added_marks others
  obtain ⟨_, firstShape⟩ := node.markAll_eq_withHeader fields
  obtain ⟨_, secondShape⟩ := node.markAll_eq_withHeader others
  have permuted : List.Perm first second := by
    refine (List.perm_ext_iff_of_nodup firstDistinct secondDistinct).mpr fun field => ?_
    rw [firstListed, secondListed, same]
  refine ⟨node.header.readOnly ++ second, ?_, ?_⟩
  · rw [firstMarks]
    exact permuted.append_left _
  · rw [secondShape, header_withHeader] at secondMarks
    rw [secondShape, firstShape, ← secondMarks]
    simp

end Node

namespace Survey

/-- What a survey gathers at a node does not depend on the marks of the node. -/
def IgnoresMarks {α : Type} (gather : Site → List α) : Prop :=
  ∀ name location node (marks : List String),
    gather ⟨name, location, node.withHeader { node.header with readOnly := marks }⟩ = gather ⟨name, location, node⟩

theorem ignoresMarks_tagUsesAt (names : List String) : IgnoresMarks (tagUsesAt names) := by
  intro name location node marks
  simp [tagUsesAt, Node.discriminator?]

theorem ignoresMarks_defectsAt (names : List String) : IgnoresMarks (defectsAt names) := by
  intro name location node marks
  have bounds : boundsAt ⟨name, location, node.withHeader { node.header with readOnly := marks }⟩ =
      boundsAt ⟨name, location, node⟩ := by
    cases node <;> rfl
  simp [defectsAt, bounds, emptyMappingAt, lostTagsAt, targets, Node.discriminator?]

/-- A changed header shows at the first place of a definition and at no other. -/
private theorem occurrences_withHeader (node : Node) :
    ∃ below, ∀ header, (node.withHeader header).occurrences = ([], node.withHeader header) :: below := by
  cases node with
  | object | array | map | scalar => exact ⟨_, fun header => by rw [Node.withHeader, Node.occurrences]⟩

variable {α : Type} {gather : Site → List α}

private theorem flatMap_occurrences_markReadOnly (ignores : IgnoresMarks gather) (name : String) (node : Node)
    (field : String) :
    ((node.markReadOnly field).occurrences.map fun (location, inner) => Site.mk name location inner).flatMap gather =
      (node.occurrences.map fun (location, inner) => Site.mk name location inner).flatMap gather := by
  obtain ⟨below, places⟩ := occurrences_withHeader node
  have unmarked := places node.header
  rw [Node.withHeader_header] at unmarked
  rw [Node.markReadOnly_eq_withHeader, places, unmarked]
  simp only [List.map_cons, List.flatMap_cons, ignores name [] node _]

theorem flatMap_sites_marked (ignores : IgnoresMarks gather) (definitions : Entries Node) (uses : List TagUse) :
    (sites (Schema.marked definitions uses)).flatMap gather = (sites definitions).flatMap gather := by
  have step (use : TagUse) (table : Entries Node) :
      (sites (Entries.adjust use.target (·.markReadOnly use.property) table)).flatMap gather =
        (sites table).flatMap gather := by
    induction table with
    | nil => rfl
    | cons entry rest ih =>
      unfold Entries.adjust
      split
      · simp only [sites, List.flatMap_cons, List.flatMap_append,
          flatMap_occurrences_markReadOnly ignores]
      · simpa only [sites, List.flatMap_cons, List.flatMap_append] using congrArg _ ih
  induction uses generalizing definitions with
  | nil => rfl
  | cons use uses ih => exact (ih _).trans (step use definitions)

variable {definitions other : Entries Node}

theorem tagUses_marked (definitions : Entries Node) (uses : List TagUse) :
    tagUses (Schema.marked definitions uses) = tagUses definitions := by
  rw [tagUses, Schema.keys_marked, flatMap_sites_marked (ignoresMarks_tagUsesAt _), tagUses]

theorem defects_marked (definitions : Entries Node) (uses : List TagUse) :
    defects (Schema.marked definitions uses) = defects definitions := by
  rw [defects, Schema.keys_marked, flatMap_sites_marked (ignoresMarks_defectsAt _), defects]

theorem mem_tagUses_perm (permuted : List.Perm definitions other) {use : TagUse} :
    use ∈ tagUses definitions ↔ use ∈ tagUses other := by
  simp only [mem_tagUses_iff, TagUse.Occurs, Entries.keys, (permuted.map Prod.fst).mem_iff, permuted.mem_iff]

theorem defects_perm (permuted : List.Perm definitions other) : List.Perm (defects definitions) (defects other) := by
  have names : (defectsAt (Entries.keys definitions)) = defectsAt (Entries.keys other) := by
    funext site
    simp only [defectsAt, lostTagsAt, Entries.keys, (permuted.map Prod.fst).contains_eq]
  rw [defects, defects, names]
  exact (permuted.flatMap_right _).flatMap_right _

end Survey

namespace Schema

variable {definitions other : Entries Node}

/-- Marks that stand already are not made again. -/
theorem marked_eq_self {table : Entries Node} {uses : List TagUse}
    (known : ∀ use ∈ uses, ∀ node, table.lookup use.target = some node → node.isReadOnly use.property) :
    marked table uses = table := by
  induction uses with
  | nil => rfl
  | cons use uses ih =>
    have fixed : Entries.adjust use.target (·.markReadOnly use.property) table = table :=
      Entries.adjust_eq_self fun node found => Node.markReadOnly_of_isReadOnly (known use List.mem_cons_self node found)
    rw [marked, List.foldl_cons, fixed]
    exact ih fun later member => known later (List.mem_cons_of_mem use member)

theorem untaggableDefect?_marked (definitions : Entries Node) (uses : List TagUse) (use : TagUse) :
    untaggableDefect? (marked definitions uses) use = untaggableDefect? definitions use := by
  rw [untaggableDefect?, lookup_marked, untaggableDefect?]
  cases definitions.lookup use.target with
  | none => rfl
  | some node => simp [Node.canCarryTag]

theorem build_definitions_build (definitions : Entries Node) :
    build (build definitions).definitions = build definitions := by
  have marks : marked (build definitions).definitions (Survey.tagUses definitions) = (build definitions).definitions :=
    marked_eq_self fun use used node found => isReadOnly_of_mem_tagUses used found
  have uses : Survey.tagUses (build definitions).definitions = Survey.tagUses definitions := Survey.tagUses_marked _ _
  have defects : Survey.defects (build definitions).definitions = Survey.defects definitions := Survey.defects_marked _ _
  have untaggable : untaggableDefect? (build definitions).definitions = untaggableDefect? definitions :=
    funext fun use => untaggableDefect?_marked definitions _ use
  rw [build, uses, marks, defects, untaggable]
  rfl

theorem definition?_build_perm (distinct : Entries.Distinct definitions) (permuted : List.Perm definitions other)
    (name : String) :
    Option.Rel Node.SameButMarks ((build definitions).definition? name) ((build other).definition? name) := by
  have fields : ∀ field, field ∈ tagFields definitions name ↔ field ∈ tagFields other name := by
    intro field
    simp only [tagFields, List.mem_map, List.mem_filter, Survey.mem_tagUses_perm permuted]
  rw [definition?_build, definition?_build, ← distinct.lookup_perm permuted]
  cases definitions.lookup name with
  | none => exact .none
  | some node => exact .some (node.sameButMarks_markAll fields)

theorem lookup_tagged_build (definitions : Entries Node) (use : TagUse) :
    (build definitions).tagged.lookup use =
      if use ∈ Survey.tagUses definitions then
        ((build definitions).definition? use.target).map (·.tagged use.property use.tag)
      else none :=
  lookup_variantTable _ _ use

theorem tagged_build_perm (distinct : Entries.Distinct definitions) (permuted : List.Perm definitions other)
    (use : TagUse) :
    Option.Rel Node.SameButMarks ((build definitions).tagged.lookup use) ((build other).tagged.lookup use) := by
  rw [lookup_tagged_build, lookup_tagged_build]
  simp only [Survey.mem_tagUses_perm permuted]
  split
  · have bases := definition?_build_perm distinct permuted use.target
    generalize (build definitions).definition? use.target = base, (build other).definition? use.target = others at bases
    cases bases with
    | none => exact .none
    | some same => exact .some (same.tagged use.property use.tag)
  · exact .none

theorem defects_build_perm (distinct : Entries.Distinct definitions) (permuted : List.Perm definitions other) :
    List.Perm (build definitions).defects (build other).defects := by
  have untaggable : untaggableDefect? definitions = untaggableDefect? other := by
    funext use
    rw [untaggableDefect?, distinct.lookup_perm permuted, untaggableDefect?]
  refine (List.perm_ext_iff_of_nodup (Defect.nodup_collect _) (Defect.nodup_collect _)).mpr fun defect => ?_
  simp only [Defect.mem_collect, List.mem_append, List.mem_filterMap, untaggable, Survey.mem_tagUses_perm permuted,
    (Survey.defects_perm permuted).mem_iff]

/-- A schema is determined by its definitions, in whichever order they come and however often it is built. -/
theorem build_canonical (definitions : Entries Node) :
    (Entries.Distinct definitions → ∀ other, List.Perm definitions other →
      (∀ name, Option.Rel Node.SameButMarks ((build definitions).definition? name) ((build other).definition? name)) ∧
      (∀ use, Option.Rel Node.SameButMarks ((build definitions).tagged.lookup use) ((build other).tagged.lookup use)) ∧
      List.Perm (build definitions).defects (build other).defects) ∧
    build (build definitions).definitions = build definitions := by
  constructor
  · intro distinct other permuted
    exact ⟨definition?_build_perm distinct permuted, tagged_build_perm distinct permuted,
      defects_build_perm distinct permuted⟩
  · exact build_definitions_build definitions

/-- Two definitions, the second of which leads to itself, are the owners of tags for the second. -/
def twoOwners : Entries Node :=
  [("tree", .map { discriminator := some byType } (.scalar {} Node.anyString)),
    ("leaf", .object { discriminator := some byKind } [])]

/-- The leaf has both marks in either order of `twoOwners`, each time in the order of their owners. -/
theorem build_canonical_twoOwners :
    Entries.Distinct twoOwners ∧ List.Perm twoOwners twoOwners.reverse ∧
    (∃ leaf other, (build twoOwners).definition? "leaf" = some leaf ∧
      (build twoOwners.reverse).definition? "leaf" = some other ∧ leaf.SameButMarks other ∧
      leaf.header.readOnly = ["type", "kind"] ∧ other.header.readOnly = ["kind", "type"]) ∧
    List.Perm (build twoOwners).defects (build twoOwners.reverse).defects ∧
    build (build twoOwners).definitions = build twoOwners := by
  have distinct : Entries.Distinct twoOwners := by decide
  have permuted : List.Perm twoOwners twoOwners.reverse := (List.reverse_perm _).symm
  obtain ⟨orders, again⟩ := build_canonical twoOwners
  obtain ⟨nodes, _, defects⟩ := orders distinct _ permuted
  have leaf : (build twoOwners).definition? "leaf" =
      some (.object { discriminator := some byKind, readOnly := ["type", "kind"] } []) := rfl
  have other : (build twoOwners.reverse).definition? "leaf" =
      some (.object { discriminator := some byKind, readOnly := ["kind", "type"] } []) := rfl
  have same := nodes "leaf"
  rw [leaf, other] at same
  cases same with
  | some same => exact ⟨distinct, permuted, ⟨_, _, leaf, other, same, rfl, rfl⟩, defects, again⟩

end Schema

end SchemaGuide
