import SchemaGuide.Proofs.Removal
import SchemaGuide.Proofs.Surroundings

/-! What a refused removal would do to a document without problems. The check looks at one node and one value, and yet it
foretells all that validation would say of the document afterwards: one field or one element is missed, and nothing else
is wrong anywhere. -/

namespace SchemaGuide

/-- A part of a value that a body admits has a node there, and stands to the node as all parts do. -/
theorem Node.Admits.exists_below? {holds : Node → Json → Prop} {rule : Node} {value part : Json} {step : Step}
    (admitted : rule.Admits holds value) (fits : Schema.Fits rule value step) (found : value.child? step = some part) :
    ∃ next, Schema.below? rule step = some next ∧ holds next part := by
  cases fits with
  | @field header properties members key =>
    obtain ⟨_, declared, fields⟩ := admitted
    have listed : key ∈ Entries.keys properties := declared (key, part) (Json.mem_entries_of_member? found)
    obtain ⟨next, known⟩ := Option.isSome_iff_exists.mp (Entries.lookup_isSome_iff.mpr listed)
    exact ⟨next, known, fields (key, next) (Entries.mem_of_lookup known) part found⟩
  | @entry header element members key =>
    exact ⟨element, rfl, admitted (key, part) (Json.mem_entries_of_member? found)⟩
  | @element header element minItems maxItems elements position =>
    obtain ⟨_, _, sound⟩ := admitted
    exact ⟨element, rfl, sound part (List.mem_of_getElem? found)⟩

namespace Schema

variable {schema : Schema} {node rule target : Node} {value part : Json} {path : Path} {last : Step}

/-- A value is there, and the step has the form that the value and its governing node call for. -/
def InShape (schema : Schema) (node : Node) (given : Option Json) (step : Step) : Prop :=
  ∃ value, given = some value ∧ Fits (schema.governing node given) value step

/-- Where a document has no problems, steps of the right form are all that a path needs to follow the document. -/
theorem follows_of_along (plain : schema.PlainVariants) (free : schema.problems value node = [])
    (shaped : schema.Along schema.InShape node (some value) path) (present : value.at? path = some part) :
    ∃ target, schema.Follows node value path target part ∧ schema.problems part target = [] := by
  induction path generalizing node value with
  | nil =>
    cases present
    exact ⟨node, .here, free⟩
  | cons step rest ih =>
    obtain ⟨rule, ruled, admitted⟩ := problems_eq_nil_iff_admits.mp free
    have governs := plain.ruling_eq_ok_iff.mp ruled
    have rules := governing_of_governor? governs
    obtain ⟨_, same, fits⟩ := shaped.head
    cases same
    rw [rules] at fits
    obtain ⟨child, found, present⟩ := Option.bind_eq_some_iff.mp present
    obtain ⟨next, below, sound⟩ := admitted.exists_below? fits found
    have entered : schema.enter? (schema.governing node (some value)) step = some next := by
      rw [rules, enter?_of_plain (plain.governor?_plain governs)]
      exact below
    have deeper := shaped.tail entered
    rw [Option.bind_some, found] at deeper
    obtain ⟨target, further, reached⟩ := ih sound deeper present
    exact ⟨target, .step governs fits below found further, reached⟩

/-- The value around a part of a document without problems: its governing node admits it and has a node for the part. -/
theorem exists_container_of_along {document : Json} {root : Node} (plain : schema.PlainVariants)
    (free : schema.problems document root = [])
    (shaped : schema.Along schema.InShape root (some document) (path ++ [last]))
    (present : document.at? (path ++ [last]) = some part) :
    ∃ container node rule target, document.at? path = some container ∧ schema.Follows root document path node container ∧
      schema.governor? node container = some rule ∧ Fits rule container last ∧
      rule.Admits (fun node part => schema.problems part node = []) container ∧
      schema.descend root (some document) (path ++ [last]) = .ok target := by
  obtain ⟨container, stands, _⟩ := Option.bind_eq_some_iff.mp ((Json.at?_append document path [last]).symm.trans present)
  obtain ⟨node, follows, sound⟩ := follows_of_along plain free shaped.of_append stands
  obtain ⟨target, through, _⟩ := follows_of_along plain free shaped present
  obtain ⟨rule, ruled, admitted⟩ := problems_eq_nil_iff_admits.mp sound
  have governs := plain.ruling_eq_ok_iff.mp ruled
  obtain ⟨_, same, fits⟩ := shaped path last [] node rfl (follows.descend_eq_ok plain)
  rw [Option.bind_some, stands] at same fits
  cases same
  rw [governing_of_governor? governs] at fits
  exact ⟨container, node, rule, target, stands, follows, governs, fits, admitted, through.descend_eq_ok plain⟩

/-- Where a document has no problems, it gets those of the part that is changed and no others. -/
theorem Follows.problems_changeAt_of_free (sealed : schema.SealedVariants) (follows : schema.Follows node value path target part)
    (fields : node.WellFormed) (wellFormed : value.WellFormed) (apart : ∀ tag, target ≠ Node.tagField tag)
    (free : schema.problems value node = []) (change : Json → Json) :
    schema.problems (value.changeAt path change) node = (schema.problems (change part) target).map (.underPath path) := by
  obtain ⟨before, after, _, changed⟩ := follows.problems_changeAt sealed fields wellFormed apart
  have whole := changed id
  have unchanged : value.changeAt path id = value := Json.changeAt_eq_self fun _ _ => rfl
  rw [unchanged, free] at whole
  obtain ⟨front, rfl⟩ := List.append_eq_nil_iff.mp whole.symm
  obtain ⟨rfl, _⟩ := List.append_eq_nil_iff.mp front
  rw [changed, List.nil_append, List.append_nil]

theorem removable_of_refused {group : String} {document : Json} {declared : Node} {refusal : Refusal}
    (around : schema.nodeAt group path (some document) = .ok declared)
    (reached : schema.nodeAt group (path ++ [last]) (some document) = .ok target)
    (refused : schema.checkRemoval group document (path ++ [last]) = .error (.refused refusal)) :
    removable (schema.governing declared (document.at? path)) (document.at? path) last = .error (some refusal.category) := by
  rw [checkRemoval_concat around reached] at refused
  obtain ⟨category, outcome, same⟩ := mapError_eq_error_iff.mp refused
  rw [outcome]
  cases category with
  | none => cases same
  | some category =>
    cases same
    rfl

/-- Why a node does not let a child go, where it gives a reason. -/
inductive Refuses (given : Option Json) (last : Step) : Node → Category → Prop where
  | tag {header : Header} {properties : Entries Node}
      (pinned : header.discriminator.any (·.property = last.text) ∨ (Node.object header properties).isReadOnly last.text) :
      Refuses given last (.object header properties) .discriminatorMissing
  | required {header : Header} {properties : Entries Node} {child : Node}
      (unmarked : (Node.object header properties).isReadOnly last.text = false)
      (declared : properties.lookup last.text = some child) (needed : child.isRequired) :
      Refuses given last (.object header properties) .requiredField
  | short {header : Header} {element : Node} {bound : Int} {maxItems : Option Int} {remaining : Nat} (binds : 0 ≤ bound)
      (counted : remaining? given last = some remaining) (few : remaining < bound) :
      Refuses given last (.array header element (some bound) maxItems) .arrayTooShort
  | scalar {header : Header} {form : Scalar} : Refuses given last (.scalar header form) .invalidPath

theorem refuses_of_removable {given : Option Json} {category : Category}
    (refused : removable rule given last = .error (some category)) : Refuses given last rule category := by
  cases rule with
  | object header properties =>
    simp only [removable] at refused
    split at refused
    next pinned =>
      cases refused
      exact .tag ((Bool.or_eq_true _ _).mp pinned)
    next free =>
      split at refused
      next required =>
        cases refused
        obtain ⟨child, declared, needed⟩ := (Option.any_eq_true _ _).mp required
        rw [Bool.or_eq_true, not_or, Bool.not_eq_true, Bool.not_eq_true] at free
        exact .required free.2 declared needed
      · cases refused
  | array header element minItems maxItems =>
    simp only [removable] at refused
    split at refused
    · cases refused
    next remaining counted =>
      split at refused
      next bound binds =>
        obtain ⟨rfl, least⟩ := Option.filter_eq_some_iff.mp binds
        split at refused
        next few =>
          cases refused
          exact .short (by simpa using least) counted few
        · cases refused
      · cases refused
  | map header element => cases refused
  | scalar header form =>
    cases refused
    exact .scalar

/-- An object that lacks nothing lacks just the field that is taken out, if the field is required. -/
private theorem lacking_removeChild {properties : Entries Node} {child : Node} (distinct : properties.Distinct)
    (wellFormed : value.WellFormed)
    (complete : ∀ entry ∈ properties, entry.2.isRequired = true → ∃ part, value.member? entry.1 = some part)
    (declared : properties.lookup last.text = some child) (required : child.isRequired = true) :
    lacking (value.removeChild last) properties = [last.text] := by
  obtain ⟨earlier, later, rfl, absentBefore, absentAfter⟩ := distinct.exists_split declared
  have others {fields : Entries Node} (inside : ∀ entry ∈ fields, entry ∈ earlier ++ (last.text, child) :: later)
      (absent : last.text ∉ Entries.keys fields) : lacking (value.removeChild last) fields = [] := by
    apply lacking_eq_nil_iff.mpr
    intro entry member needed
    have apart : entry.1 ≠ last.text := by
      intro same
      exact absent (same ▸ List.mem_map_of_mem member)
    rw [wellFormed.member?_removeChild, if_neg apart]
    exact complete entry (inside entry member) needed
  have before := others (fun entry member => List.mem_append_left _ member) absentBefore
  have after := others (fun entry member => List.mem_append_right _ (List.mem_cons_of_mem _ member)) absentAfter
  have gone : (value.removeChild last).member? last.text = none := by
    rw [wellFormed.member?_removeChild, if_pos rfl]
  unfold lacking at before after ⊢
  rw [List.filter_append, List.map_append, before, List.filter_cons_of_pos (by simp [required, gone]), List.map_cons, after,
    List.nil_append]

theorem heldProblems_removeChild_required {header : Header} {properties : Entries Node} {child : Node}
    (distinct : properties.Distinct) (wellFormed : value.WellFormed)
    (admitted : (Node.object header properties).Admits (fun node part => schema.problems part node = []) value)
    (declared : properties.lookup last.text = some child) (required : child.isRequired = true) :
    schema.heldProblems (value.removeChild last) (.object header properties) = [.here (.missing [last.text])] := by
  obtain ⟨complete, known, fields⟩ := admitted
  have sound : schema.declaredProblems (value.removeChild last) properties = [] := by
    apply declaredProblems_eq_nil_iff.mpr
    intro entry member part found
    rw [wellFormed.member?_removeChild] at found
    split at found
    · cases found
    · exact fields entry member part found
  have listed : unknownProblems (value.removeChild last) properties = [] :=
    unknownProblems_eq_nil_iff.mpr fun entry member => known entry (Json.mem_entries_removeChild member)
  rw [heldProblems_object, sound, listed, lacking_removeChild distinct wellFormed complete declared required]
  rfl

private theorem lengthProblems_of_few {length : Nat} {bound : Int} {maxItems : Option Int} (binds : 0 ≤ bound)
    (short : length < bound) (few : ∀ greatest, maxItems = some greatest → 0 ≤ greatest → length ≤ greatest) :
    lengthProblems length (some bound) maxItems = [.here (.tooFew bound)] := by
  have within : lengthProblems length none maxItems = [] := lengthProblems_eq_nil_iff.mpr ⟨nofun, few⟩
  simp only [lengthProblems, Option.filter_none, List.append_nil] at within
  simp only [lengthProblems, within, Option.filter_some, binds, decide_true, if_true, if_pos short, List.nil_append]

theorem heldProblems_removeChild_short {header : Header} {element : Node} {bound : Int} {maxItems : Option Int}
    (admitted : (Node.array header element (some bound) maxItems).Admits (fun node part => schema.problems part node = []) value)
    (binds : 0 ≤ bound) (short : (value.removeChild last).items.length < bound) :
    schema.heldProblems (value.removeChild last) (.array header element (some bound) maxItems) = [.here (.tooFew bound)] := by
  obtain ⟨_, few, elements⟩ := admitted
  -- The elements are at fault for nothing, as the same array without bounds would say.
  have sound : schema.heldProblems (value.removeChild last) (.array header element none none) = [] :=
    heldProblems_eq_nil_iff.mpr ⟨nofun, nofun, fun item member => elements item (Json.mem_items_removeChild member)⟩
  rw [heldProblems_array] at sound ⊢
  rw [(List.append_eq_nil_iff.mp sound).2, List.append_nil]
  apply lengthProblems_of_few binds short
  intro greatest given least
  have longer := few greatest given least
  rw [Json.length_items_removeChild]
  split <;> omega

/-- No tag goes with a part, unless the value is an object that has the field of the tag marked; otherwise what is left
is held to the same node. -/
private theorem problems_removeChild_of_spared (sealed : schema.SealedVariants) (wellFormed : value.WellFormed)
    (governs : schema.governor? node value = some rule)
    (spared : ∀ property tag, Sealed rule property tag → property ≠ last.text) :
    schema.problems (value.removeChild last) node = schema.heldProblems (value.removeChild last) rule := by
  have still : schema.governor? node (value.removeChild last) = some rule := by
    apply sealed.governor?_of_kept governs
    intro property tag held
    exact (wellFormed.member?_removeChild last property).trans (if_neg (spared property tag held))
  exact sealed.plain.problems_of_governor? still

theorem problems_removeChild_required (sealed : schema.SealedVariants) (fields : rule.WellFormed)
    (wellFormed : value.WellFormed) (governs : schema.governor? node value = some rule)
    (admitted : rule.Admits (fun node part => schema.problems part node = []) value)
    (refused : removable rule (some value) last = .error (some .requiredField)) :
    schema.problems (value.removeChild last) node = [.here (.missing [last.text])] := by
  cases refuses_of_removable refused with
  | @required header properties _ unmarked declared needed =>
    have spared : ∀ property tag, Sealed (.object header properties) property tag → property ≠ last.text := by
      intro property tag held same
      cases unmarked.symm.trans (same ▸ held.marked)
    rw [problems_removeChild_of_spared sealed wellFormed governs spared]
    exact heldProblems_removeChild_required (fields header properties .here) wellFormed admitted declared needed

theorem problems_removeChild_short (sealed : schema.SealedVariants) (wellFormed : value.WellFormed)
    (governs : schema.governor? node value = some rule)
    (admitted : rule.Admits (fun node part => schema.problems part node = []) value)
    (refused : removable rule (some value) last = .error (some .arrayTooShort)) :
    ∃ header element bound maxItems, rule = .array header element (some bound) maxItems ∧
      schema.problems (value.removeChild last) node = [.here (.tooFew bound)] := by
  cases refuses_of_removable refused with
  | @short header element bound maxItems _ binds counted few =>
    have spared : ∀ property tag,
        Sealed (.array header element (some bound) maxItems) property tag → property ≠ last.text := by
      intro property tag held
      obtain ⟨_, _, shape, _⟩ := held.pinned
      cases shape
    refine ⟨header, element, bound, maxItems, rfl, ?_⟩
    rw [problems_removeChild_of_spared sealed wellFormed governs spared]
    exact heldProblems_removeChild_short admitted binds (remaining?_eq_some counted ▸ few)

/-- Without its tag, a discriminated value lacks the tag and is held to nothing else. -/
theorem problems_removeChild_tag {d : Discriminator} (wellFormed : value.WellFormed) (has : node.discriminator? = some d)
    (names : last.text = d.property) :
    schema.problems (value.removeChild last) node = [.here (.missing [d.property])] := by
  have untagged : (value.removeChild last).tag? d.property = none := by
    rw [Json.tag?, wellFormed.member?_removeChild, if_pos names.symm, Option.bind_none]
  simp only [problems_eq, greatestHops, ruling, has, untagged]

end Schema

namespace Editor

/-- A refused removal from a document without problems would leave exactly one: the field that is required, the length
that is not reached, or the tag that is gone, each at the value around. -/
theorem validate_removeAt_of_refused {editor : Editor} {definitions : Entries Node} {document part : Json} {path : Path}
    {last : Step} {root : Node} {refusal : Refusal} (built : editor.schema = Schema.build definitions)
    (fields : ∀ entry ∈ definitions, entry.2.WellFormed) (targets : ObjectTargets definitions)
    (wellFormed : document.WellFormed) (known : editor.schema.definition? editor.root = some root)
    (free : editor.validate document = [])
    (shaped : editor.schema.Along editor.schema.InShape root (some document) (path ++ [last]))
    (present : document.at? (path ++ [last]) = some part)
    (refused : editor.checkRemoval document (path ++ [last]) = .error (.refused refusal)) :
    (refusal.category = .requiredField →
      editor.validate (document.removeAt (path ++ [last])) = [⟨path, .missing [last.text]⟩]) ∧
    (refusal.category = .arrayTooShort → ∃ node header element bound maxItems,
      editor.nodeAt path (some document) = .ok node ∧
      editor.schema.governing node (document.at? path) = .array header element (some bound) maxItems ∧
      editor.validate (document.removeAt (path ++ [last])) = [⟨path, .tooFew bound⟩]) ∧
    (refusal.category = .discriminatorMissing → ∀ node d, editor.nodeAt path (some document) = .ok node →
      node.discriminator? = some d → last.text = d.property →
      editor.validate (document.removeAt (path ++ [last])) = [⟨path, .missing [d.property]⟩]) := by
  have sealed : editor.schema.SealedVariants := built ▸ Schema.sealedVariants_build fields targets
  have rootFields : root.WellFormed := Schema.wellFormed_of_definition? fields (built ▸ known)
  have whole (value : Json) : editor.validate value = editor.schema.problems value root := by rw [validate, known]
  rw [whole] at free
  obtain ⟨container, node, rule, target, stands, follows, governs, fits, admitted, through⟩ :=
    Schema.exists_container_of_along sealed.plain free shaped present
  have walked := follows.descend_eq_ok sealed.plain
  have around : editor.nodeAt path (some document) = .ok node := Schema.nodeAt_eq_ok_iff.mpr ⟨root, known, walked⟩
  have reached : editor.nodeAt (path ++ [last]) (some document) = .ok target :=
    Schema.nodeAt_eq_ok_iff.mpr ⟨root, known, through⟩
  have ruleFields := Schema.wellFormed_of_governor? (Schema.wellFormed_of_descend sealed.wellFormed rootFields walked)
    sealed.wellFormed governs
  have rules : editor.schema.governing node (document.at? path) = rule := stands ▸ Schema.governing_of_governor? governs
  have verdict := Schema.removable_of_refused around reached refused
  rw [rules, stands] at verdict
  have untagged : ∀ tag, node ≠ Node.tagField tag := by
    intro tag same
    subst same
    cases governs
    cases fits
  have inner : container.WellFormed := wellFormed.at? stands
  have removed : editor.validate (document.removeAt (path ++ [last])) =
      (editor.schema.problems (container.removeChild last) node).map (.underPath path) := by
    rw [whole, Json.removeAt_concat, follows.problems_changeAt_of_free sealed rootFields wellFormed untagged free]
  refine ⟨?_, ?_, ?_⟩
  · intro required
    rw [required] at verdict
    rw [removed, Schema.problems_removeChild_required sealed ruleFields inner governs admitted verdict, List.map_singleton,
      Problem.underPath_here]
  · intro short
    rw [short] at verdict
    obtain ⟨header, element, bound, maxItems, rfl, lost⟩ :=
      Schema.problems_removeChild_short sealed inner governs admitted verdict
    refine ⟨node, header, element, bound, maxItems, around, rules, ?_⟩
    rw [removed, lost, List.map_singleton, Problem.underPath_here]
  · intro _ other d same has names
    cases around.symm.trans same
    rw [removed, Schema.problems_removeChild_tag inner has names, List.map_singleton, Problem.underPath_here]

def pet : Node := .scalar { discriminator := some ⟨"kind", [("dog", "#/definitions/dog")]⟩ } Node.anyString

def kennel : Entries Node :=
  let text : Node := .scalar { required := true } Node.anyString
  [("kennel", .object {} [("pens", .map {} (.array {} pet (some 1) none))]), ("dog", .object {} [("name", text)])]

def dogs : Json := .obj [("pens", .obj [("a", .arr [.obj [("kind", .str "dog"), ("name", .str "Rex")]])])]

/-- The only dog of a pen, its name and its kind: the check refuses each for a reason of its own, and is right. -/
theorem validate_removeAt_of_refused_kennel :
    let editor : Editor := ⟨Schema.build kennel, "kennel", standardSuffix⟩
    let pen : Path := [.key "pens", .key "a"]
    let dog : Path := pen ++ [.index 0]
    editor.checkRemoval dogs dog = .error (.refused ⟨"kennel", dog, .arrayTooShort⟩) ∧
      editor.validate (dogs.removeAt dog) = [⟨pen, .tooFew 1⟩] ∧
      editor.checkRemoval dogs (dog ++ [.key "name"]) = .error (.refused ⟨"kennel", dog ++ [.key "name"], .requiredField⟩) ∧
      editor.validate (dogs.removeAt (dog ++ [.key "name"])) = [⟨dog, .missing ["name"]⟩] ∧
      editor.checkRemoval dogs (dog ++ [.key "kind"]) =
        .error (.refused ⟨"kennel", dog ++ [.key "kind"], .discriminatorMissing⟩) ∧
      editor.validate (dogs.removeAt (dog ++ [.key "kind"])) = [⟨dog, .missing ["kind"]⟩] := by
  intro editor pen dog
  have fields : ∀ entry ∈ kennel, entry.2.WellFormed := by simp [kennel, pet, Entries.Distinct, Entries.keys]
  have wellFormed : dogs.WellFormed := by
    simp [dogs, Json.WellFormed, Json.AllWellFormed, Json.MembersWellFormed, Entries.Distinct, Entries.keys]
  have known : editor.schema.definition? "kennel" =
      some (.object {} [("pens", .map {} (.array {} pet (some 1) none))]) := rfl
  have shaped (field : String) : editor.schema.Along editor.schema.InShape
      (.object {} [("pens", .map {} (.array {} pet (some 1) none))]) (some dogs) (dog ++ [.key field]) := by
    refine .cons ⟨_, rfl, .field⟩ fun _ entered => ?_
    cases entered
    refine .cons ⟨_, rfl, .entry⟩ fun _ entered => ?_
    cases entered
    refine .cons ⟨_, rfl, .element⟩ fun _ entered => ?_
    cases entered
    exact .cons ⟨_, rfl, .field⟩ fun _ _ => .nil
  have free : (Editor.mk (Schema.build kennel) "kennel" standardSuffix).validate dogs = [] := by decide +kernel
  obtain ⟨_, short, _⟩ := validate_removeAt_of_refused rfl fields (by decide) wellFormed known free
    (shaped "name").of_append rfl rfl
  obtain ⟨required, _, _⟩ := validate_removeAt_of_refused rfl fields (by decide) wellFormed known free (shaped "name") rfl rfl
  obtain ⟨_, _, missing⟩ := validate_removeAt_of_refused rfl fields (by decide) wellFormed known free (shaped "kind") rfl rfl
  obtain ⟨_, _, _, _, _, around, rules, lost⟩ := short rfl
  cases around
  cases rules
  exact ⟨rfl, lost, rfl, required rfl, rfl, missing rfl _ _ rfl rfl rfl⟩

end Editor

end SchemaGuide
