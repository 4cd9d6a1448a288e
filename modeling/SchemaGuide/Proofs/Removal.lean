import SchemaGuide.Proofs.Conformance
import SchemaGuide.Proofs.RemovalCheck

/-! A document without problems keeps none through any run of removals that are allowed. The check walks the schema, the
removal walks the document and validation walks both; they meet in one induction on the path. Where document and schema
differ in shape validation never looks, so there a removal cannot do harm, whatever the check says. -/

namespace SchemaGuide

namespace Schema

/-- The check of a removal as a single walk. -/
def Allows (schema : Schema) : Node → Option Json → Path → Prop
  | _, _, [] => False
  | node, value, [last] => (∃ next, schema.enter? (schema.governing node value) last = some next) ∧
      removable (schema.governing node value) value last = .ok ()
  | node, value, step :: next :: rest => ∃ child, schema.enter? (schema.governing node value) step = some child ∧
      schema.Allows child (value.bind (·.child? step)) (next :: rest)

variable {schema : Schema}

private theorem allows_of_walks {path : Path} {last : Step} (ends : path.getLast? = some last) {node target declared : Node}
    {value : Option Json} (reached : schema.descend node value path = .ok target)
    (around : schema.descend node value path.dropLast = .ok declared)
    (free : removable (schema.governing declared (value.bind (·.at? path.dropLast))) (value.bind (·.at? path.dropLast)) last
      = .ok ()) : schema.Allows node value path := by
  match path with
  | [] => cases ends
  | [only] =>
    cases ends
    cases around
    obtain ⟨next, entered, _⟩ := descend_cons_eq_ok_iff.mp reached
    rw [List.dropLast_singleton, Json.bind_at?_nil] at free
    exact ⟨⟨next, entered⟩, free⟩
  | step :: next :: rest =>
    obtain ⟨child, entered, reached⟩ := descend_cons_eq_ok_iff.mp reached
    obtain ⟨other, same, around⟩ := descend_cons_eq_ok_iff.mp around
    cases entered.symm.trans same
    rw [List.dropLast_cons_cons, Json.bind_at?_cons] at free
    have ends : (next :: rest).getLast? = some last := ends
    exact ⟨child, entered, allows_of_walks ends reached around free⟩

theorem allows_of_checkRemoval {group : String} {document : Json} {path : Path}
    (allowed : schema.checkRemoval group document path = .ok ()) :
    ∃ node, schema.definition? group = some node ∧ schema.Allows node (some document) path := by
  cases ends : path.getLast? with
  | none =>
    simp only [checkRemoval, ends] at allowed
    cases allowed
  | some last =>
    obtain ⟨⟨target, reached⟩, declared, around, free⟩ := (checkRemoval_eq_ok_iff ends).mp allowed
    obtain ⟨node, found, reached⟩ := nodeAt_eq_ok_iff.mp reached
    obtain ⟨other, same, around⟩ := nodeAt_eq_ok_iff.mp around
    cases found.symm.trans same
    exact ⟨node, found, allows_of_walks ends reached around free⟩

theorem remaining?_eq_some {value : Json} {last : Step} {count : Nat}
    (counted : remaining? (some value) last = some count) : (value.removeChild last).items.length = count := by
  rw [Json.length_items_removeChild]
  have length : ((value.elements?).map List.length).getD 0 = value.items.length := by cases value <;> rfl
  unfold remaining? at counted
  simp only [Option.bind_some, length] at counted
  split at counted
  next absent => simpa [absent] using counted
  · cases counted
  next present more =>
    cases counted
    simp [present, more]

/-- If a node lets a child go, its body admits the value without the child. -/
private theorem admits_removeChild {holds : Node → Json → Prop} {rule : Node} {value : Json} {last : Step}
    (fields : rule.WellFormed) (wellFormed : value.WellFormed) (free : removable rule (some value) last = .ok ())
    (admitted : rule.Admits holds value) : rule.Admits holds (value.removeChild last) := by
  cases rule with
  | object header properties =>
    obtain ⟨complete, declared, parts⟩ := admitted
    have optional : ∀ entry ∈ properties, entry.2.isRequired = true → entry.1 ≠ last.text := by
      intro entry member required same
      have found : properties.lookup last.text = some entry.2 :=
        same ▸ (fields header properties .here).lookup_of_mem member
      simp only [removable, found, Option.any_some, required, if_true] at free
      split at free <;> cases free
    refine ⟨fun entry member required => ?_, fun entry member => declared entry (Json.mem_entries_removeChild member),
      fun entry member part found => ?_⟩
    · rw [wellFormed.member?_removeChild, if_neg (optional entry member required)]
      exact complete entry member required
    · rw [wellFormed.member?_removeChild] at found
      split at found
      · cases found
      · exact parts entry member part found
  | array header element minItems maxItems =>
    obtain ⟨enough, few, elements⟩ := admitted
    refine ⟨fun bound given binds => ?_, fun bound given binds => ?_,
      fun item member => elements item (Json.mem_items_removeChild member)⟩
    · simp only [removable] at free
      split at free
      · cases free
      next count counted =>
        rw [remaining?_eq_some counted]
        subst given
        simp only [Option.filter_some, binds, decide_true, if_true] at free
        split at free
        · cases free
        · omega
    · have shorter := few bound given binds
      rw [Json.length_items_removeChild]
      split <;> omega
  | map header element => exact fun entry member => admitted entry (Json.mem_entries_removeChild member)
  | scalar header form => cases free

/-- A body goes on admitting a value if the child at a step changes within what its node allows. -/
private theorem admits_adjustChild {holds : Node → Json → Prop} {rule next : Node} {value part : Json} {step : Step}
    {change : Json → Json} (fields : rule.WellFormed) (entered : below? rule step = some next)
    (found : value.child? step = some part) (kept : holds next part → holds next (change part))
    (admitted : rule.Admits holds value) : rule.Admits holds (value.adjustChild step change) := by
  cases rule with
  | object header properties =>
    obtain ⟨complete, declared, parts⟩ := admitted
    refine ⟨fun entry member required => ?_, fun entry member => ?_, fun entry member changed inside => ?_⟩
    · obtain ⟨old, present⟩ := complete entry member required
      rw [Json.member?_adjustChild, present]
      split
      · exact ⟨change old, rfl⟩
      · exact ⟨old, rfl⟩
    · rcases Json.mem_entries_adjustChild member with old | ⟨_, _, _, rfl⟩
      · exact declared entry old
      · exact Entries.lookup_isSome_iff.mp (Option.isSome_iff_exists.mpr ⟨next, entered⟩)
    · rw [Json.member?_adjustChild] at inside
      split at inside
      next same =>
        obtain ⟨old, present, rfl⟩ := Option.map_eq_some_iff.mp inside
        have declaredHere : properties.lookup step.text = some entry.2 :=
          same ▸ (fields header properties .here).lookup_of_mem member
        cases entered.symm.trans declaredHere
        rcases Json.child?_cases found with ⟨here, _⟩ | ⟨empty, _⟩
        · have unchanged : part = old := Option.some.inj (here.symm.trans (same ▸ present))
          subst unchanged
          exact kept (parts entry member part present)
        · rw [Json.member?_eq_lookup, empty] at present
          cases present
      · exact parts entry member changed inside
  | array header element minItems maxItems =>
    obtain ⟨enough, few, elements⟩ := admitted
    obtain ⟨_, _, rfl⟩ := Option.map_eq_some_iff.mp entered
    rw [← Json.length_items_adjustChild value step change] at enough few
    refine ⟨enough, few, fun item member => ?_⟩
    rcases Json.mem_items_adjustChild member with old | ⟨other, same, before, rfl⟩
    · exact elements item old
    · cases found.symm.trans same
      exact kept (elements part before)
  | map header element =>
    cases entered
    intro entry member
    rcases Json.mem_entries_adjustChild member with old | ⟨other, same, before, rfl⟩
    · exact admitted entry old
    · cases found.symm.trans same
      exact kept (admitted _ before)
  | scalar header form => cases entered

/-- Nothing may be removed at or below a scalar, so no removal reaches into the field that holds a tag. -/
private theorem not_allows_scalar {header : Header} {form : Scalar} {value : Option Json} {path : Path}
    (plain : header.discriminator = none) : ¬ schema.Allows (.scalar header form) value path := by
  have own : (Node.scalar header form).discriminator? = none := plain
  have closed step : schema.enter? (schema.governing (.scalar header form) value) step = none := by
    rw [governing_of_plain own]
    exact enter?_of_plain own step
  intro allowed
  rcases path with _ | ⟨step, _ | ⟨next, rest⟩⟩
  · exact allowed
  · obtain ⟨⟨next, entered⟩, _⟩ := allowed
    cases (closed step).symm.trans entered
  · obtain ⟨child, entered, _⟩ := allowed
    cases (closed step).symm.trans entered

private theorem Sealed.removable_ne {rule : Node} {property tag : String} (held : Sealed rule property tag)
    {value : Option Json} {last : Step} (free : removable rule value last = .ok ()) : property ≠ last.text := by
  rintro rfl
  obtain ⟨header, properties, rfl, _⟩ := held.pinned
  simp [removable, held.marked] at free

private theorem Sealed.allows_ne {rule child : Node} {property tag : String} (held : Sealed rule property tag)
    {step : Step} {part : Option Json} {path : Path} (entered : below? rule step = some child)
    (allowed : schema.Allows child part path) : property ≠ step.text := by
  rintro rfl
  obtain ⟨header, properties, rfl, pin⟩ := held.pinned
  cases entered.symm.trans pin
  exact not_allows_scalar rfl allowed

/-- A change that the governing node admits brings no problem if the field that selects this node stays as it is. -/
private theorem problems_of_admits (sealed : schema.SealedVariants) {node rule : Node} {value changed : Json}
    (governs : schema.governor? node value = some rule)
    (kept : ∀ property tag, Sealed rule property tag → changed.member? property = value.member? property)
    (admitted : rule.Admits (fun node part => schema.problems part node = []) changed) :
    schema.problems changed node = [] := by
  have still := sealed.governor?_of_kept governs kept
  exact problems_eq_nil_iff_admits.mpr ⟨rule, sealed.plain.ruling_eq_ok_iff.mpr still, admitted⟩

/-- One removal that is allowed brings no problem into a value that has none. -/
theorem problems_removeAt (sealed : schema.SealedVariants) {node : Node} {value : Json} {path : Path}
    (fields : node.WellFormed) (wellFormed : value.WellFormed) (free : schema.problems value node = [])
    (allowed : schema.Allows node (some value) path) : schema.problems (value.removeAt path) node = [] := by
  obtain ⟨rule, ruled, admitted⟩ := problems_eq_nil_iff_admits.mp free
  have governs := sealed.plain.ruling_eq_ok_iff.mp ruled
  have plain := sealed.plain.governor?_plain governs
  have ruleFields := wellFormed_of_governor? fields sealed.wellFormed governs
  match path with
  | [] => exact absurd allowed id
  | [last] =>
    obtain ⟨_, may⟩ := allowed
    rw [governing_of_governor? governs] at may
    refine problems_of_admits sealed governs (fun property tag held => ?_)
      (admits_removeChild ruleFields wellFormed may admitted)
    exact (wellFormed.member?_removeChild last property).trans (if_neg (held.removable_ne may))
  | step :: next :: rest =>
    obtain ⟨child, entered, deeper⟩ := allowed
    rw [governing_of_governor? governs, enter?_of_plain plain] at entered
    cases found : value.child? step with
    | none =>
      -- The check may go on where the document has nothing; the removal then leaves it alone.
      rw [Json.removeAt, Json.adjustChild_of_absent found]
      exact free
    | some part =>
      rw [Option.bind_some, found] at deeper
      have kept (sound : schema.problems part child = []) : schema.problems (part.removeAt (next :: rest)) child = [] :=
        problems_removeAt sealed (ruleFields.of_within (within_of_below? entered)) (wellFormed.child found) sound deeper
      refine problems_of_admits sealed governs (fun property tag held => ?_)
        (admits_adjustChild ruleFields entered found kept admitted)
      exact (value.member?_adjustChild step _ property).trans (if_neg (held.allows_ne entered deeper))

end Schema

namespace Editor

variable {editor : Editor} {definitions : Entries Node} {document : Json}

theorem remove_eq_ok_iff {path : Path} {next : Json} :
    editor.remove document path = .ok next ↔ editor.checkRemoval document path = .ok () ∧ document.removeAt path = next := by
  unfold remove
  cases editor.checkRemoval document path with
  | error objection => simp [bind, Except.bind]
  | ok => simp [bind, Except.bind, pure, Except.pure]

theorem validate_remove (built : editor.schema = Schema.build definitions)
    (fields : ∀ entry ∈ definitions, entry.2.WellFormed) (targets : ObjectTargets definitions)
    (wellFormed : document.WellFormed) (free : editor.validate document = []) {path : Path} {next : Json}
    (removed : editor.remove document path = .ok next) : editor.validate next = [] := by
  obtain ⟨checked, rfl⟩ := remove_eq_ok_iff.mp removed
  obtain ⟨root, found, allowed⟩ := Schema.allows_of_checkRemoval checked
  simp only [validate, found] at free ⊢
  rw [built] at found free allowed ⊢
  exact Schema.problems_removeAt (Schema.sealedVariants_build fields targets) (Schema.wellFormed_of_definition? fields found)
    wellFormed free allowed

/-- A document that starts without problems has none after any step of a run of removals. -/
theorem validate_removals (built : editor.schema = Schema.build definitions)
    (fields : ∀ entry ∈ definitions, entry.2.WellFormed) (targets : ObjectTargets definitions)
    (wellFormed : document.WellFormed) (free : editor.validate document = []) {paths : List Path} {last : Json}
    (run : paths.foldlM editor.remove document = .ok last) :
    ∀ steps, steps <+: paths →
      ∃ reached, steps.foldlM editor.remove document = .ok reached ∧ editor.validate reached = [] := by
  induction paths generalizing document with
  | nil =>
    intro steps earlier
    cases List.prefix_nil.mp earlier
    exact ⟨document, rfl, free⟩
  | cons path paths ih =>
    intro steps earlier
    rw [List.foldlM_cons] at run
    cases removed : editor.remove document path with
    | error objection => simp [removed, bind, Except.bind] at run
    | ok next =>
      rw [removed] at run
      have kept : next.WellFormed := (remove_eq_ok_iff.mp removed).2 ▸ wellFormed.removeAt path
      have sound := validate_remove built fields targets wellFormed free removed
      cases steps with
      | nil => exact ⟨document, rfl, free⟩
      | cons first steps =>
        obtain ⟨rfl, shorter⟩ := List.cons_prefix_cons.mp earlier
        rw [List.foldlM_cons, removed]
        exact ih kept sound run steps shorter

def drawing : Entries Node :=
  let text : Node := .scalar {} Node.anyString
  let shape : Discriminator := ⟨"kind", [("circle", "#/definitions/circle")]⟩
  [("drawing", .object {} [("shapes", .array {} (.scalar { discriminator := some shape } Node.anyString) (some 1) none),
      ("layers", .array {} text none none), ("notes", .map {} text)]),
    ("circle", .object {} [("labels", .map {} text), ("colour", text)])]

/-- Two circles; the layers and the notes do not have the shape that the definitions expect. -/
def sketch : Json :=
  .obj [("shapes", .arr [
      .obj [("kind", .str "circle"), ("colour", .str "red"), ("labels", .obj [("a", .str "x"), ("b", .str "y")])],
      .obj [("kind", .str "circle")]]),
    ("layers", .obj [("top", .str "x")]), ("notes", .arr [.str "n"])]

def erasures : List Path :=
  [[.key "shapes", .index 0, .key "labels", .key "a"], [.key "layers", .index 0], [.key "shapes", .index 0, .key "colour"],
    [.key "notes", .index 0], [.key "shapes", .index 0]]

/-- A run through an array, a variant and a map, past values that are not there. -/
theorem validate_removals_drawing :
    (Editor.mk (Schema.build drawing) "drawing" standardSuffix).validate sketch = [] ∧
    erasures.foldlM (Editor.mk (Schema.build drawing) "drawing" standardSuffix).remove sketch =
      .ok (.obj [("shapes", .arr [.obj [("kind", .str "circle")]]), ("layers", .obj [("top", .str "x")]),
        ("notes", .arr [])]) ∧
    ∀ steps, steps <+: erasures → ∃ reached,
      steps.foldlM (Editor.mk (Schema.build drawing) "drawing" standardSuffix).remove sketch = .ok reached ∧
      (Editor.mk (Schema.build drawing) "drawing" standardSuffix).validate reached = [] := by
  have fields : ∀ entry ∈ drawing, entry.2.WellFormed := by simp [drawing, Entries.Distinct, Entries.keys]
  have wellFormed : sketch.WellFormed := by
    simp [sketch, Json.WellFormed, Json.AllWellFormed, Json.MembersWellFormed, Entries.Distinct, Entries.keys]
  have run : erasures.foldlM (Editor.mk (Schema.build drawing) "drawing" standardSuffix).remove sketch = .ok _ := rfl
  exact ⟨rfl, run, validate_removals rfl fields (by decide) wellFormed rfl run⟩

end Editor

end SchemaGuide
