import SchemaGuide.Proofs.TagClosure
import SchemaGuide.Schema.Navigation
import SchemaGuide.Schema.Validation

/-! Which node governs a value. Navigation looks for a variant once and goes on with the node as it is when there is
none; validation follows one tag after another and stops when there is none. Where no definition behind a tag has a
discriminator of its own, both arrive at the same node. -/

namespace SchemaGuide

/-- No definition that a tag is mapped to has a discriminator of its own. -/
def PlainTargets (definitions : Entries Node) : Prop :=
  ∀ use node, TagUse.Occurs definitions use → definitions.lookup use.target = some node → node.discriminator? = none

/-- Besides, every such definition is an object. -/
def ObjectTargets (definitions : Entries Node) : Prop :=
  ∀ use node, TagUse.Occurs definitions use → definitions.lookup use.target = some node →
    node.kind = .object ∧ node.discriminator? = none

theorem forall_targets_iff {definitions : Entries Node} {property : Node → Prop} :
    (∀ use node, TagUse.Occurs definitions use → definitions.lookup use.target = some node → property node) ↔
      ∀ use ∈ Survey.tagUses definitions, ∀ node ∈ definitions.lookup use.target, property node := by
  constructor
  · intro holds use used node found
    exact holds use node (Survey.mem_tagUses_iff.mp used).2 found
  · intro holds use node occurs found
    have known : use.target ∈ Entries.keys definitions := Entries.lookup_isSome_iff.mp (by simp [found])
    exact holds use (Survey.mem_tagUses_iff.mpr ⟨known, occurs⟩) node found

instance (definitions : Entries Node) : Decidable (PlainTargets definitions) :=
  decidable_of_iff' _ forall_targets_iff

instance (definitions : Entries Node) : Decidable (ObjectTargets definitions) :=
  decidable_of_iff' _ forall_targets_iff

theorem ObjectTargets.plain {definitions : Entries Node} (targets : ObjectTargets definitions) :
    PlainTargets definitions :=
  fun use node occurs found => (targets use node occurs found).2

namespace Schema

/-- The node that governs a value; nothing if the node has a discriminator and the value selects no variant. -/
def governor? (schema : Schema) (node : Node) (value : Json) : Option Node :=
  match node.discriminator? with
  | none => some node
  | some _ => schema.selected? node (some value)

def PlainVariants (schema : Schema) : Prop :=
  ∀ d tag variant, schema.variant? d tag = some variant → variant.discriminator? = none

def WellFormedVariants (schema : Schema) : Prop :=
  ∀ d tag variant, schema.variant? d tag = some variant → variant.WellFormed

/-- Every variant has the property of its tag marked. -/
def MarkedVariants (schema : Schema) : Prop :=
  ∀ d tag variant, schema.variant? d tag = some variant → variant.isReadOnly d.property = true

variable {schema : Schema} {node rule : Node} {value : Json}

theorem mem_variants {d : Discriminator} {tag : String} {variant : Node} :
    (tag, variant) ∈ schema.variants d ↔ tag ∈ d.tags ∧ schema.variant? d tag = some variant := by
  simp [variants]

theorem selected?_eq_some_iff {given : Option Json} {variant : Node} :
    schema.selected? node given = some variant ↔ ∃ d value tag, node.discriminator? = some d ∧ given = some value ∧
      value.tag? d.property = some tag ∧ schema.variant? d tag = some variant := by
  simp only [selected?, Option.bind_eq_bind, Option.bind_eq_some_iff]
  constructor
  · rintro ⟨d, has, value, rfl, tag, tagged, led⟩
    exact ⟨d, value, tag, has, rfl, tagged, led⟩
  · rintro ⟨d, value, tag, has, rfl, tagged, led⟩
    exact ⟨d, has, value, rfl, tag, tagged, led⟩

theorem governor?_eq_some_iff : schema.governor? node value = some rule ↔
    node.discriminator? = none ∧ rule = node ∨ ∃ d tag, node.discriminator? = some d ∧
      value.tag? d.property = some tag ∧ schema.variant? d tag = some rule := by
  unfold governor?
  cases has : node.discriminator? with
  | none => simp [eq_comm]
  | some d => simp [selected?_eq_some_iff, has]

theorem governing_of_unselected {given : Option Json} (unselected : schema.selected? node given = none) :
    schema.governing node given = node := by
  rw [governing, unselected, Option.getD_none]

theorem governing_of_plain (plain : node.discriminator? = none) (given : Option Json) :
    schema.governing node given = node :=
  governing_of_unselected (by simp [selected?, plain])

theorem governing_of_governor? (governs : schema.governor? node value = some rule) :
    schema.governing node (some value) = rule := by
  rcases governor?_eq_some_iff.mp governs with ⟨plain, rfl⟩ | ⟨d, tag, has, tagged, led⟩
  · exact governing_of_plain plain (some value)
  · rw [governing, selected?_eq_some_iff.mpr ⟨d, value, tag, has, rfl, tagged, led⟩, Option.getD_some]

theorem PlainVariants.governor?_plain (plain : schema.PlainVariants) (governs : schema.governor? node value = some rule) :
    rule.discriminator? = none := by
  rcases governor?_eq_some_iff.mp governs with ⟨own, rfl⟩ | ⟨d, tag, _, _, led⟩
  · exact own
  · exact plain d tag rule led

theorem wellFormed_of_governor? (fields : node.WellFormed)
    (variants : schema.WellFormedVariants)
    (governs : schema.governor? node value = some rule) : rule.WellFormed := by
  rcases governor?_eq_some_iff.mp governs with ⟨_, rfl⟩ | ⟨d, tag, _, _, led⟩
  · exact fields
  · exact variants d tag rule led

theorem holds_of_governor? (held : schema.Holds node) (governs : schema.governor? node value = some rule) :
    schema.Holds rule := by
  rcases governor?_eq_some_iff.mp governs with ⟨_, rfl⟩ | ⟨d, tag, _, _, led⟩
  · exact held
  · exact holds_of_variant? led

theorem ruling_of_plain (plain : node.discriminator? = none) (hops : Nat) : schema.ruling value hops node = .ok node := by
  cases hops with
  | zero => rfl
  | succ hops => rw [ruling, plain]

theorem ruling_of_selected (selected : schema.selected? node (some value) = some rule)
    (plain : rule.discriminator? = none) : schema.ruling value greatestHops node = .ok rule := by
  obtain ⟨d, _, tag, has, same, tagged, led⟩ := selected?_eq_some_iff.mp selected
  cases same
  simp only [greatestHops, ruling, has, tagged, led, plain]

/-- One tag is enough where no variant has a discriminator. -/
theorem PlainVariants.ruling_eq_ok_iff (plain : schema.PlainVariants) :
    schema.ruling value greatestHops node = .ok rule ↔ schema.governor? node value = some rule := by
  rw [governor?_eq_some_iff, greatestHops, ruling]
  cases has : node.discriminator? with
  | none => simp [eq_comm]
  | some d =>
    cases tagged : value.tag? d.property with
    | none => simp [tagged]
    | some tag =>
      cases led : schema.variant? d tag with
      | none => simp [tagged, led]
      | some variant => simp [tagged, led, ruling, plain d tag variant led]

theorem enter?_of_plain (plain : node.discriminator? = none) (step : Step) :
    schema.enter? node step = below? node step := by
  cases step <;> simp [enter?, taggedBy?, plain]

theorem within_of_property? {field : String} {next : Node} (declared : node.property? field = some next) :
    Node.Within next node := by
  cases node with
  | object => exact .property (Entries.mem_of_lookup declared) .here
  | array | map | scalar => cases declared

theorem within_of_below? {step : Step} {next : Node} (entered : below? node step = some next) : Node.Within next node := by
  cases node with
  | object header properties => exact .property (Entries.mem_of_lookup entered) .here
  | array header element minItems maxItems =>
    obtain ⟨_, _, rfl⟩ := Option.map_eq_some_iff.mp entered
    exact .items .here
  | map header element =>
    cases entered
    exact .values .here
  | scalar header form => cases entered

theorem mapError_eq_ok_iff {α ε δ : Type} {cause : ε → δ} {result : Except ε α} {outcome : α} :
    result.mapError cause = .ok outcome ↔ result = .ok outcome := by
  constructor
  · intro held
    cases result with
    | error => cases held
    | ok =>
      cases held
      rfl
  · rintro rfl
    rfl

theorem mapError_eq_error_iff {α ε δ : Type} {cause : ε → δ} {result : Except ε α} {outcome : δ} :
    result.mapError cause = .error outcome ↔ ∃ reason, result = .error reason ∧ cause reason = outcome := by
  constructor
  · intro failed
    cases result with
    | error reason =>
      cases failed
      exact ⟨reason, rfl, rfl⟩
    | ok => cases failed
  · rintro ⟨reason, rfl, rfl⟩
    rfl

theorem descend_cons_eq_ok_iff {given : Option Json} {step : Step} {rest : Path} {target : Node} :
    schema.descend node given (step :: rest) = .ok target ↔
      ∃ next, schema.enter? (schema.governing node given) step = some next ∧
        schema.descend next (given.bind (·.child? step)) rest = .ok target := by
  rw [descend]
  cases schema.enter? (schema.governing node given) step with
  | none => simp
  | some next => simp [mapError_eq_ok_iff]

theorem descend_singleton {given : Option Json} {step : Step} {next : Node}
    (entered : schema.enter? (schema.governing node given) step = some next) :
    schema.descend node given [step] = .ok next :=
  descend_cons_eq_ok_iff.mpr ⟨next, entered, rfl⟩

theorem nodeAt_eq_ok_iff {group : String} {path : Path} {document : Option Json} {target : Node} :
    schema.nodeAt group path document = .ok target ↔
      ∃ node, schema.definition? group = some node ∧ schema.descend node document path = .ok target := by
  rw [nodeAt]
  cases schema.definition? group with
  | none => simp
  | some node => simp [mapError_eq_ok_iff]

theorem descend_append_eq_ok_iff {given : Option Json} {first rest : Path} {target : Node} :
    schema.descend node given (first ++ rest) = .ok target ↔
      ∃ middle, schema.descend node given first = .ok middle ∧
        schema.descend middle (given.bind (·.at? first)) rest = .ok target := by
  induction first generalizing node given with
  | nil =>
    rw [Json.bind_at?_nil]
    simp [descend]
  | cons step first ih =>
    simp only [List.cons_append, descend_cons_eq_ok_iff, ih, Json.bind_at?_cons]
    constructor
    · intro walked
      obtain ⟨next, entered, middle, reached, further⟩ := walked
      exact ⟨middle, ⟨next, entered, reached⟩, further⟩
    · intro walked
      obtain ⟨middle, ⟨next, entered, reached⟩, further⟩ := walked
      exact ⟨next, entered, middle, reached, further⟩

theorem nodeAt_append_eq_ok_iff {group : String} {first rest : Path} {document : Json} {target : Node} :
    schema.nodeAt group (first ++ rest) (some document) = .ok target ↔
      ∃ middle, schema.nodeAt group first (some document) = .ok middle ∧
        schema.descend middle (document.at? first) rest = .ok target := by
  simp only [nodeAt_eq_ok_iff, descend_append_eq_ok_iff, Option.bind_some]
  constructor
  · rintro ⟨root, found, middle, reached, further⟩
    exact ⟨middle, ⟨root, found, reached⟩, further⟩
  · rintro ⟨middle, ⟨root, found, reached⟩, further⟩
    exact ⟨root, found, middle, reached, further⟩

/-- The condition holds at every step of the path, of the node and the value that navigation leaves there. -/
def Along (schema : Schema) (holds : Node → Option Json → Step → Prop) (node : Node) (given : Option Json) (path : Path) :
    Prop :=
  ∀ before step after inner, path = before ++ step :: after → schema.descend node given before = .ok inner →
    holds inner (given.bind (·.at? before)) step

section Along

variable {holds : Node → Option Json → Step → Prop} {given : Option Json} {step : Step} {rest : Path}

theorem Along.nil : schema.Along holds node given [] := by
  intro before step after inner split
  cases (List.append_eq_nil_iff.mp split.symm).2

theorem Along.cons (here : holds node given step) (below : ∀ next, schema.enter? (schema.governing node given) step = some next →
    schema.Along holds next (given.bind (·.child? step)) rest) : schema.Along holds node given (step :: rest) := by
  intro before other after inner split reached
  cases before with
  | nil =>
    cases split
    cases reached
    rwa [Json.bind_at?_nil]
  | cons first before =>
    cases split
    obtain ⟨next, entered, reached⟩ := descend_cons_eq_ok_iff.mp reached
    rw [Json.bind_at?_cons]
    exact below next entered before other after inner rfl reached

theorem Along.head (along : schema.Along holds node given (step :: rest)) : holds node given step := by
  have first := along [] step rest node rfl rfl
  rwa [Json.bind_at?_nil] at first

theorem Along.tail {next : Node} (along : schema.Along holds node given (step :: rest))
    (entered : schema.enter? (schema.governing node given) step = some next) :
    schema.Along holds next (given.bind (·.child? step)) rest := by
  intro before other after inner split reached
  rw [← Json.bind_at?_cons]
  apply along (step :: before) other after inner
  · rw [split, List.cons_append]
  · exact descend_cons_eq_ok_iff.mpr ⟨next, entered, reached⟩

theorem Along.of_append {path : Path} (along : schema.Along holds node given (path ++ rest)) :
    schema.Along holds node given path := by
  intro before step after inner split
  apply along before step (after ++ rest)
  rw [split, List.append_assoc, List.cons_append]

end Along

theorem enter?_of_variant {d : Discriminator} {tag : String} {variant : Node} (has : node.discriminator? = some d)
    (selected : schema.variant? d tag = some variant) : schema.enter? node (.key tag) = some variant := by
  rw [enter?, taggedBy?, has, Option.bind_some, selected, Option.some_or]

/-- No choice of a variant is open: there is none to choose, or the value selects it. -/
def Settled (schema : Schema) (node : Node) (given : Option Json) : Prop :=
  node.discriminator? = none ∨ (schema.selected? node given).isSome

theorem settled_of_governor? (governs : schema.governor? node value = some rule) : schema.Settled node (some value) := by
  unfold governor? at governs
  unfold Settled
  cases has : node.discriminator? with
  | none => exact .inl rfl
  | some d =>
    rw [has] at governs
    exact .inr (Option.isSome_iff_exists.mpr ⟨rule, governs⟩)

theorem governing_cases (schema : Schema) (node : Node) (given : Option Json) :
    schema.governing node given = node ∨ ∃ d tag, schema.variant? d tag = some (schema.governing node given) := by
  cases selected : schema.selected? node given with
  | none => exact .inl (governing_of_unselected selected)
  | some variant =>
    obtain ⟨d, _, tag, _, _, _, led⟩ := selected?_eq_some_iff.mp selected
    refine .inr ⟨d, tag, ?_⟩
    rw [governing, selected, Option.getD_some]
    exact led

theorem PlainVariants.governing_plain (plain : schema.PlainVariants) {given : Option Json}
    (settled : schema.Settled node given) : (schema.governing node given).discriminator? = none := by
  rcases settled with own | selected
  · rcases schema.governing_cases node given with same | ⟨d, tag, led⟩
    · rw [same]
      exact own
    · exact plain d tag _ led
  · obtain ⟨variant, selected⟩ := Option.isSome_iff_exists.mp selected
    obtain ⟨d, _, tag, _, _, _, led⟩ := selected?_eq_some_iff.mp selected
    rw [governing, selected, Option.getD_some]
    exact plain d tag variant led

theorem wellFormed_governing (fields : node.WellFormed)
    (variants : schema.WellFormedVariants) (given : Option Json) :
    (schema.governing node given).WellFormed := by
  rcases schema.governing_cases node given with same | ⟨d, tag, led⟩
  · rw [same]
    exact fields
  · exact variants d tag _ led

/-- What holds of all parts of a node that it holds of, and of all variants, holds wherever navigation leads. -/
theorem forall_of_descend {holds : Node → Prop} (parts : ∀ inner outer, Node.Within inner outer → holds outer → holds inner)
    (variants : ∀ d tag variant, schema.variant? d tag = some variant → holds variant) {given : Option Json} {path : Path}
    {target : Node} (start : holds node) (reached : schema.descend node given path = .ok target) : holds target := by
  induction path generalizing node given with
  | nil =>
    cases reached
    exact start
  | cons step rest ih =>
    obtain ⟨next, entered, reached⟩ := descend_cons_eq_ok_iff.mp reached
    refine ih ?_ reached
    rcases Option.or_eq_some_iff.mp entered with named | ⟨_, entered⟩
    · cases step with
      | key tag =>
        obtain ⟨d, _, led⟩ := Option.bind_eq_some_iff.mp named
        exact variants d tag next led
      | index position => cases named
    · apply parts next _ (within_of_below? entered)
      rcases schema.governing_cases node given with same | ⟨d, tag, led⟩
      · rw [same]
        exact start
      · exact variants d tag _ led

theorem wellFormed_of_descend
    (variants : schema.WellFormedVariants) {given : Option Json}
    {path : Path} {target : Node} (fields : node.WellFormed) (reached : schema.descend node given path = .ok target) :
    target.WellFormed :=
  forall_of_descend (fun _ _ inside wellFormed => wellFormed.of_within inside) variants fields reached

theorem holds_of_descend {given : Option Json} {path : Path} {target : Node} (held : schema.Holds node)
    (reached : schema.descend node given path = .ok target) : schema.Holds target :=
  forall_of_descend (fun _ _ inside held => held.of_within inside) (fun _ _ _ selected => holds_of_variant? selected) held reached

variable {definitions : Entries Node}

/-- What a variant is made of, in terms of the definitions before the schema was built. -/
theorem variant?_build_source {d : Discriminator} {tag : String} {variant : Node}
    (selected : (build definitions).variant? d tag = some variant) :
    ∃ use node fields, TagUse.Occurs definitions use ∧ definitions.lookup use.target = some node ∧
      variant = (node.markAll fields).tagged d.property tag := by
  obtain ⟨target, base, _, used, found, rfl⟩ := variant?_build_eq_some selected
  rw [definition?_build] at found
  obtain ⟨node, present, rfl⟩ := Option.map_eq_some_iff.mp found
  exact ⟨_, node, _, (Survey.mem_tagUses_iff.mp used).2, present, rfl⟩

theorem plainVariants_build (targets : PlainTargets definitions) : (build definitions).PlainVariants := by
  intro d tag variant selected
  obtain ⟨use, node, fields, occurs, present, rfl⟩ := variant?_build_source selected
  rw [Node.discriminator?_tagged, Node.discriminator?_markAll]
  exact targets use node occurs present

theorem wellFormedVariants_build (wellFormed : ∀ entry ∈ definitions, entry.2.WellFormed) :
    (build definitions).WellFormedVariants := by
  intro d tag variant selected
  obtain ⟨use, node, fields, _, present, rfl⟩ := variant?_build_source selected
  exact ((wellFormed _ (Entries.mem_of_lookup present)).markAll fields).tagged d.property tag

theorem markedVariants_build (definitions : Entries Node) : (build definitions).MarkedVariants := by
  intro d tag variant selected
  obtain ⟨use, node, fields, _, _, rfl⟩ := variant?_build_source selected
  exact Node.isReadOnly_tagged _ d.property tag

theorem wellFormed_of_definition? (wellFormed : ∀ entry ∈ definitions, entry.2.WellFormed) {name : String} {node : Node}
    (found : (build definitions).definition? name = some node) : node.WellFormed := by
  rw [definition?_build] at found
  obtain ⟨source, present, rfl⟩ := Option.map_eq_some_iff.mp found
  exact (wellFormed _ (Entries.mem_of_lookup present)).markAll _

/-- A variant that edits leave in force: an object whose field for the tag is marked and holds nothing below. -/
structure Sealed (variant : Node) (property tag : String) : Prop where
  wellFormed : variant.WellFormed
  plain : variant.discriminator? = none
  marked : variant.isReadOnly property = true
  pinned : ∃ header properties, variant = .object header properties ∧ properties.lookup property = some (Node.tagField tag)

def SealedVariants (schema : Schema) : Prop :=
  ∀ d tag variant, schema.variant? d tag = some variant → Sealed variant d.property tag

theorem SealedVariants.plain (sealed : schema.SealedVariants) : schema.PlainVariants :=
  fun d tag variant selected => (sealed d tag variant selected).plain

theorem SealedVariants.wellFormed (sealed : schema.SealedVariants) : schema.WellFormedVariants :=
  fun d tag variant selected => (sealed d tag variant selected).wellFormed

theorem sealedVariants_build {definitions : Entries Node} (wellFormed : ∀ entry ∈ definitions, entry.2.WellFormed)
    (targets : ObjectTargets definitions) : (build definitions).SealedVariants := by
  intro d tag variant selected
  have own := wellFormedVariants_build wellFormed d tag variant selected
  have plain := plainVariants_build targets.plain d tag variant selected
  obtain ⟨use, node, fields, occurs, present, rfl⟩ := variant?_build_source selected
  have object : (node.markAll fields).kind = .object := by
    rw [Node.kind_markAll]
    exact (targets use node occurs present).1
  exact ⟨own, plain, Node.isReadOnly_tagged _ _ _, Node.pinned_tagged object d.property tag⟩

/-- A change that spares the field of the tag leaves the governing node in force. -/
theorem SealedVariants.governor?_of_kept (sealed : schema.SealedVariants) {changed : Json}
    (governs : schema.governor? node value = some rule)
    (kept : ∀ property tag, Sealed rule property tag → changed.member? property = value.member? property) :
    schema.governor? node changed = some rule := by
  rcases governor?_eq_some_iff.mp governs with ⟨plain, rfl⟩ | ⟨d, tag, has, tagged, led⟩
  · exact governor?_eq_some_iff.mpr (.inl ⟨plain, rfl⟩)
  · have same : changed.tag? d.property = some tag := by
      rw [Json.tag?, kept d.property tag (sealed d tag rule led)]
      exact tagged
    exact governor?_eq_some_iff.mpr (.inr ⟨d, tag, has, same, led⟩)

end Schema

end SchemaGuide
