import Mathlib.Logic.Relation
import SchemaGuide.Proofs.Templates

/-! How the making of a sample runs, call by call. A call for a node leads to the nodes directly below it or, at a
discriminator, to variants from anywhere in the schema, so the nodes that are read need not become smaller. It ends all the
same: on the way into a variant one definition more is being expanded, and none is ever expanded inside itself; on the way
to a child the node is smaller. -/

namespace SchemaGuide

/-- A call of the recursion: the definitions that are being expanded, the node that is read, and the discriminator whose
variants stand in its place. A variant is read for its own body, with or without a discriminator. -/
structure Reading where
  expanding : List String
  node : Node
  choice : Option Discriminator

/-- A tag with the variant that it leads to and the definition that this is made of. -/
structure Choice where
  tag : String
  target : String
  variant : Node

namespace Reading

def ofNode (expanding : List String) (node : Node) : Reading := ⟨expanding, node, node.discriminator?⟩

def ofChoice (expanding : List String) (choice : Choice) : Reading := ⟨choice.target :: expanding, choice.variant, none⟩

/-- No definition is expanded inside itself, and nothing but definitions is. -/
structure Sound (schema : Schema) (reading : Reading) : Prop where
  distinct : reading.expanding.Nodup
  known : reading.expanding ⊆ schema.names

end Reading

namespace Node

/-- How many nodes a node is made of. -/
def size (node : Node) : Nat := node.occurrences.length

theorem size_lt_of_property {header : Header} {properties : Entries Node} {entry : String × Node}
    (declared : entry ∈ properties) : entry.2.size < (object header properties).size := by
  suffices inside : entry.2.size ≤ (propertyOccurrences properties).length by
    simp only [size, occurrences, List.length_cons] at inside ⊢
    omega
  induction properties with
  | nil => cases declared
  | cons first others ih =>
    rw [propertyOccurrences, List.length_append, List.length_map]
    rcases List.mem_cons.mp declared with rfl | later
    · exact Nat.le_add_right _ _
    · exact Nat.le_add_left_of_le (ih later)

theorem size_lt_of_items {header : Header} {items : Node} {minItems maxItems : Option Int} :
    items.size < (array header items minItems maxItems).size := by
  simp only [size, occurrences, List.length_cons, List.length_map]
  exact Nat.lt_succ_self _

end Node

namespace Schema

def choices (schema : Schema) (d : Discriminator) : List Choice :=
  d.tags.filterMap fun tag => (d.target? tag).bind fun target =>
    (schema.tagged.lookup ⟨target, d.property, tag⟩).map fun variant => ⟨tag, target, variant⟩

/-- The sample of a node, one call for each node that is read, and nothing when some call lies deeper than `depth`. No
call is known beforehand to be smaller than the one that makes it. -/
def read? (schema : Schema) : (depth : Nat) → Reading → Option Json
  | 0, _ => none
  | depth + 1, ⟨expanding, node, choice⟩ =>
    match choice, node with
    | some d, _ =>
      ((schema.choices d).mapM fun choice =>
        if choice.target ∈ expanding then some (choice.tag, .obj [])
        else (schema.read? depth (.ofChoice expanding choice)).map (choice.tag, ·)).map .obj
    | none, .object _ properties =>
      (properties.mapM fun entry => (schema.read? depth (.ofNode expanding entry.2)).map (entry.1, ·)).map .obj
    | none, .array _ items minItems _ =>
      match sampleCount minItems with
      | 0 => some (.arr [])
      | more + 1 => (schema.read? depth (.ofNode expanding items)).map fun sample => .arr (List.replicate (more + 1) sample)
    | none, .map _ _ => some (.obj [])
    | none, .scalar _ form => some form.template

/-- The calls that a call makes, in their order. -/
def calls (schema : Schema) (reading : Reading) : List Reading :=
  match reading.choice, reading.node with
  | some d, _ => ((schema.choices d).filter (·.target ∉ reading.expanding)).map (.ofChoice reading.expanding)
  | none, .object _ properties => properties.map fun entry => .ofNode reading.expanding entry.2
  | none, .array _ items minItems _ => if sampleCount minItems = 0 then [] else [.ofNode reading.expanding items]
  | none, .map _ _ => []
  | none, .scalar _ _ => []

/-- What a call comes to. -/
def sampleOf (schema : Schema) (reading : Reading) : Json :=
  match reading.choice with
  | some d => schema.expansion reading.expanding d
  | none => reading.node.bodyTemplate (schema.expansion reading.expanding)

variable {schema : Schema}

theorem sampleOf_choice (expanding : List String) (node : Node) (d : Discriminator) :
    schema.sampleOf ⟨expanding, node, some d⟩ = schema.expansion expanding d := rfl

theorem sampleOf_ofNode (expanding : List String) (node : Node) :
    schema.sampleOf (.ofNode expanding node) = node.sampleWith (schema.expansion expanding) := rfl

theorem mem_choices {d : Discriminator} {choice : Choice} : choice ∈ schema.choices d ↔ choice.tag ∈ d.tags ∧
    d.target? choice.tag = some choice.target ∧ schema.variant? d choice.tag = some choice.variant := by
  obtain ⟨tag, target, variant⟩ := choice
  simp only [choices, List.mem_filterMap, Option.bind_eq_some_iff, Option.map_eq_some_iff, variant?]
  constructor
  · rintro ⟨_, listed, _, mapped, _, found, same⟩
    cases same
    exact ⟨listed, mapped, _, mapped, found⟩
  · rintro ⟨listed, mapped, other, same, found⟩
    cases mapped.symm.trans same
    exact ⟨tag, listed, target, mapped, variant, found, rfl⟩

theorem expansion_eq (expanding : List String) (d : Discriminator) : schema.expansion expanding d =
    .obj ((schema.choices d).map fun choice => (choice.tag,
      if choice.target ∈ expanding then .obj [] else schema.sampleOf (.ofChoice expanding choice))) := by
  rw [expansion, choices, List.map_filterMap]
  congr 2
  funext tag
  cases d.target? tag with
  | none => rfl
  | some target =>
    simp only [Option.bind_some, Option.map_map]
    split
    next lost => rw [lost, Option.map_none]
    next variant found =>
      rw [found, Option.map_some]
      split
      next cut => simp [cut]
      next fresh => simp [fresh, sampleOf, Reading.ofChoice]

/-- All that a call leads to. -/
theorem mem_calls {reading next : Reading} (made : next ∈ schema.calls reading) :
    (∃ d choice, reading.choice = some d ∧ choice ∈ schema.choices d ∧ choice.target ∉ reading.expanding ∧
      next = .ofChoice reading.expanding choice) ∨
    ∃ child : Node, child.size < reading.node.size ∧ next = .ofNode reading.expanding child := by
  obtain ⟨expanding, node, choice⟩ := reading
  cases choice with
  | some d =>
    obtain ⟨choice, kept, rfl⟩ := List.mem_map.mp made
    obtain ⟨offered, fresh⟩ := List.mem_filter.mp kept
    exact .inl ⟨d, choice, rfl, offered, by simpa using fresh, rfl⟩
  | none =>
    cases node with
    | object header properties =>
      obtain ⟨entry, declared, rfl⟩ := List.mem_map.mp made
      exact .inr ⟨entry.2, Node.size_lt_of_property declared, rfl⟩
    | array header items minItems maxItems =>
      simp only [calls] at made
      split at made
      · cases made
      · exact .inr ⟨items, Node.size_lt_of_items, List.mem_singleton.mp made⟩
    | map | scalar => cases made

private theorem isSome_mapM_iff {α β : Type} {f : α → Option β} {list : List α} :
    (list.mapM f).isSome ↔ ∀ a ∈ list, (f a).isSome := by
  induction list with
  | nil => simp
  | cons a list ih =>
    rw [List.mapM_cons, List.forall_mem_cons, ← ih]
    cases f a <;> cases list.mapM f <;> simp

private theorem mapM_eq_some_map {α β : Type} {f : α → Option β} {g : α → β} {list : List α}
    (each : ∀ a ∈ list, f a = some (g a)) : list.mapM f = some (list.map g) := by
  induction list with
  | nil => rfl
  | cons a list ih =>
    obtain ⟨first, others⟩ := List.forall_mem_cons.mp each
    rw [List.mapM_cons, first, ih others]
    rfl

/-- A call ends within a depth just when the calls that it makes end within one less. -/
theorem isSome_read?_succ {depth : Nat} {reading : Reading} :
    (schema.read? (depth + 1) reading).isSome ↔ ∀ next ∈ schema.calls reading, (schema.read? depth next).isSome := by
  obtain ⟨expanding, node, choice⟩ := reading
  cases choice with
  | some d =>
    simp only [read?, Option.isSome_map, isSome_mapM_iff, calls, List.forall_mem_map, List.mem_filter]
    refine ⟨fun ended choice kept => ?_, fun ended choice offered => ?_⟩
    · have fresh : choice.target ∉ expanding := by simpa using kept.2
      simpa [fresh] using ended choice kept.1
    · split
      · rfl
      next fresh => simpa using ended choice ⟨offered, by simpa using fresh⟩
  | none =>
    cases node with
    | object header properties =>
      simp only [read?, Option.isSome_map, isSome_mapM_iff, calls, List.forall_mem_map]
    | array header items minItems maxItems =>
      cases count : sampleCount minItems with
      | zero => simp [read?, calls, count]
      | succ more => simp [read?, calls, count]
    | map | scalar => simp [read?, calls]

theorem isSome_read?_of_le {depth more : Nat} {reading : Reading} (ended : (schema.read? depth reading).isSome)
    (deeper : depth ≤ more) : (schema.read? more reading).isSome := by
  induction depth generalizing more reading with
  | zero => cases ended
  | succ depth ih =>
    obtain ⟨more, rfl⟩ : ∃ less, more = less + 1 := ⟨more - 1, by omega⟩
    apply isSome_read?_succ.mpr
    intro next made
    exact ih (isSome_read?_succ.mp ended next made) (Nat.le_of_succ_le_succ deeper)

/-- A call that ends comes to its sample. -/
theorem read?_eq_sampleOf {depth : Nat} {reading : Reading} (ended : (schema.read? depth reading).isSome) :
    schema.read? depth reading = some (schema.sampleOf reading) := by
  induction depth generalizing reading with
  | zero => cases ended
  | succ depth ih =>
    have below : ∀ next ∈ schema.calls reading, schema.read? depth next = some (schema.sampleOf next) :=
      fun next made => ih (isSome_read?_succ.mp ended next made)
    obtain ⟨expanding, node, choice⟩ := reading
    cases choice with
    | some d =>
      simp only [calls, List.forall_mem_map, List.mem_filter] at below
      rw [read?, sampleOf_choice, expansion_eq]
      refine congrArg (Option.map Json.obj) (mapM_eq_some_map fun choice offered => ?_)
      split
      · rfl
      next fresh => rw [below choice ⟨offered, by simpa using fresh⟩, Option.map_some]
    | none =>
      cases node with
      | object header properties =>
        simp only [calls, List.forall_mem_map] at below
        rw [read?, sampleOf, Node.bodyTemplate_object]
        refine congrArg (Option.map Json.obj) (mapM_eq_some_map fun entry declared => ?_)
        rw [below entry declared, Option.map_some, sampleOf_ofNode]
      | array header items minItems maxItems =>
        simp only [sampleOf, Node.bodyTemplate_array]
        cases count : sampleCount minItems with
        | zero => simp only [read?, count, List.replicate_zero]
        | succ more =>
          have element := below (.ofNode expanding items) (by simp [calls, count])
          simp only [read?, count, element, Option.map_some, sampleOf_ofNode]
      | map | scalar => rfl

/-- The definitions that are not being expanded. -/
def idle (schema : Schema) (expanding : List String) : List String := schema.names.filter (!expanding.contains ·)

/-- What lies ahead of a call: the definitions that are not being expanded and, as long as these stay the same, the nodes
to read. -/
def ahead (schema : Schema) (reading : Reading) : Nat × Nat := ((schema.idle reading.expanding).length, reading.node.size)

/-- The recursion comes from one call to another. -/
def Reaches (schema : Schema) : Reading → Reading → Prop :=
  Relation.ReflTransGen fun reading next => next ∈ schema.calls reading

variable {definitions : Entries Node}

theorem target_mem_names {d : Discriminator} {choice : Choice} (offered : choice ∈ (build definitions).choices d) :
    choice.target ∈ (build definitions).names := by
  obtain ⟨_, mapped, led⟩ := mem_choices.mp offered
  obtain ⟨target, base, same, _, found, _⟩ := variant?_build_eq_some led
  cases mapped.symm.trans same
  exact Entries.lookup_isSome_iff.mp (Option.isSome_iff_exists.mpr ⟨base, found⟩)

/-- Less lies ahead of every call than of the one that makes it. -/
theorem ahead_of_mem_calls {reading next : Reading} (made : next ∈ (build definitions).calls reading) :
    Prod.Lex (· < ·) (· < ·) ((build definitions).ahead next) ((build definitions).ahead reading) := by
  rcases mem_calls made with ⟨d, choice, _, offered, fresh, rfl⟩ | ⟨child, smaller, rfl⟩
  · exact .left _ _ (length_filter_cons_lt (target_mem_names offered) fresh)
  · exact .right _ smaller

theorem exists_isSome_read? (definitions : Entries Node) (reading : Reading) :
    ∃ depth, ((build definitions).read? depth reading).isSome := by
  have ends : WellFounded fun next reading =>
      Prod.Lex (· < ·) (· < ·) ((build definitions).ahead next) ((build definitions).ahead reading) :=
    InvImage.wf _ (Prod.lex Nat.lt_wfRel Nat.lt_wfRel).wf
  induction reading using ends.induction with
  | _ reading ih =>
    -- Finitely many calls are made, so the greatest of their depths will do for all of them.
    suffices every : ∀ made : List Reading, (∀ next ∈ made, ∃ depth, ((build definitions).read? depth next).isSome) →
        ∃ depth, ∀ next ∈ made, ((build definitions).read? depth next).isSome by
      obtain ⟨depth, below⟩ := every _ fun next made => ih next (ahead_of_mem_calls made)
      exact ⟨depth + 1, isSome_read?_succ.mpr below⟩
    intro made
    induction made with
    | nil => exact fun _ => ⟨0, nofun⟩
    | cons next made rest =>
      intro each
      obtain ⟨⟨first, ended⟩, others⟩ := List.forall_mem_cons.mp each
      obtain ⟨depth, below⟩ := rest others
      refine ⟨max first depth, List.forall_mem_cons.mpr ⟨?_, ?_⟩⟩
      · exact isSome_read?_of_le ended (Nat.le_max_left _ _)
      · exact fun other listed => isSome_read?_of_le (below other listed) (Nat.le_max_right _ _)

theorem sound_of_mem_calls {reading next : Reading} (sound : reading.Sound (build definitions))
    (made : next ∈ (build definitions).calls reading) : next.Sound (build definitions) := by
  rcases mem_calls made with ⟨d, choice, _, offered, fresh, rfl⟩ | ⟨child, _, rfl⟩
  · exact ⟨List.nodup_cons.mpr ⟨fresh, sound.distinct⟩, List.cons_subset.mpr ⟨target_mem_names offered, sound.known⟩⟩
  · exact ⟨sound.distinct, sound.known⟩

theorem sound_of_reaches {node : Node} {reading : Reading}
    (reached : (build definitions).Reaches (.ofNode [] node) reading) : reading.Sound (build definitions) := by
  induction reached with
  | refl => exact ⟨List.nodup_nil, List.nil_subset _⟩
  | tail _ made ih => exact sound_of_mem_calls ih made

/-- The making of a sample ends, however definitions refer to one another. At every call that is reached the definitions
being expanded are distinct, so they are never more than the schema has, and less lies ahead of each further call: fewer
definitions that are not being expanded or, among as many, a smaller node. -/
theorem template_ends (definitions : Entries Node) (node : Node) :
    (∃ depth, (build definitions).read? depth (.ofNode [] node) = some ((build definitions).template node)) ∧
    ∀ reading, (build definitions).Reaches (.ofNode [] node) reading →
      reading.expanding.Nodup ∧ reading.expanding ⊆ (build definitions).names ∧
      reading.expanding.length ≤ (build definitions).names.length ∧
      (∀ depth, ((build definitions).read? (depth + 1) reading).isSome ↔
        ∀ next ∈ (build definitions).calls reading, ((build definitions).read? depth next).isSome) ∧
      ∀ next ∈ (build definitions).calls reading,
        Prod.Lex (· < ·) (· < ·) ((build definitions).ahead next) ((build definitions).ahead reading) := by
  constructor
  · obtain ⟨depth, ended⟩ := exists_isSome_read? definitions (.ofNode [] node)
    exact ⟨depth, read?_eq_sampleOf ended⟩
  · intro reading reached
    obtain ⟨distinct, known⟩ := sound_of_reaches reached
    exact ⟨distinct, known, distinct.length_le_of_subset known, fun _ => isSome_read?_succ,
      fun next made => ahead_of_mem_calls made⟩

def answer : Node := .scalar { discriminator := some ⟨"kind", [("note", "#/definitions/note"), ("like", "like")]⟩ } Node.anyString

/-- Notes are answered with notes and likes, and a like is answered again. -/
def thread : Entries Node :=
  [("note", .object {} [("text", .scalar {} Node.anyString), ("answers", .array {} answer (some 2) none)]),
    ("like", .object {} [("again", answer)])]

/-- Inside a like inside a note both definitions are being expanded, so the answers to the like lead no further. -/
theorem template_ends_thread :
    (∃ depth, (build thread).read? depth (.ofNode [] answer) = some ((build thread).template answer)) ∧
    ∃ reading, (build thread).Reaches (.ofNode [] answer) reading ∧ reading.expanding = ["like", "note"] ∧
      reading.expanding.Nodup ∧ reading.expanding ⊆ (build thread).names ∧
      reading.expanding.length ≤ (build thread).names.length ∧
      ∃ next ∈ (build thread).calls reading, (build thread).calls next = [] ∧
        Prod.Lex (· < ·) (· < ·) ((build thread).ahead next) ((build thread).ahead reading) := by
  obtain ⟨ends, every⟩ := template_ends thread answer
  have note : (build thread).Reaches (.ofNode [] answer) (.ofNode ["note"] answer) :=
    .tail (.tail (.single (.head _)) (.tail _ (.head _))) (.head _)
  have like : (build thread).Reaches (.ofNode [] answer) _ := note.tail (.head _)
  obtain ⟨distinct, known, few, _, less⟩ := every _ like
  exact ⟨ends, _, like, rfl, distinct, known, few, _, .head _, rfl, less _ (.head _)⟩

end Schema

end SchemaGuide
