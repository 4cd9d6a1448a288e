import SchemaGuide.Editor
import SchemaGuide.Proofs.Surroundings

/-! Validating a part of a document finds what validating the whole finds there. A path is followed by navigation and by
validation, each with its own treatment of tags; where a step fits its container both come to the same node, and no
sibling, unknown key or missing field has a problem below the step. What is found at a tag is told by the tag alone. -/

namespace SchemaGuide

/-- The problems of the part at a path, among all problems of a document. -/
def Problem.inside (path : Path) (problems : List Problem) : List Problem :=
  problems.filter fun problem => path.isPrefixOf problem.path

namespace Problem

variable {step : Step} {rest : Path} {problems : List Problem}

theorem inside_nil : inside [] problems = problems := List.filter_eq_self.mpr fun _ _ => rfl

theorem inside_append (path : Path) (first second : List Problem) :
    inside path (first ++ second) = inside path first ++ inside path second := List.filter_append ..

theorem inside_map_under : inside (step :: rest) (problems.map (under step)) = (inside rest problems).map (under step) := by
  unfold inside
  rw [List.filter_map]
  congr 2
  funext problem
  simp [under]

theorem inside_of_avoid (avoid : Avoid step problems) : inside (step :: rest) problems = [] := by
  refine List.filter_eq_nil_iff.mpr fun problem member below => avoid problem member ?_
  obtain ⟨deeper, same⟩ := List.isPrefixOf_iff_prefix.mp below
  rw [← same]
  rfl

end Problem

namespace Schema

variable {schema : Schema}

/-- Below a step that fits, a body has the problems of the part at the step and no others. -/
private theorem inside_heldProblems {rule next : Node} {value part : Json} {step : Step} {rest : Path}
    (fields : rule.WellFormed) (wellFormed : value.WellFormed) (fits : Fits rule value step)
    (entered : below? rule step = some next) (found : value.child? step = some part) :
    Problem.inside (step :: rest) (schema.heldProblems value rule) =
      (Problem.inside rest (schema.problems part next)).map (.under step) := by
  obtain ⟨before, after, avoid, around⟩ :=
    schema.heldProblems_adjustChild fields wellFormed fits entered found
  obtain ⟨left, right⟩ := Problem.avoid_append.mp avoid
  have whole := around id
  have unchanged : value.adjustChild step id = value := Json.adjustChild_eq_self fun _ _ => rfl
  rw [unchanged] at whole
  rw [whole, Problem.inside_append, Problem.inside_append, Problem.inside_of_avoid left, Problem.inside_of_avoid right,
    List.nil_append, List.append_nil]
  exact Problem.inside_map_under

/-- Navigation along steps that fit arrives at the node whose problems validation reports there. -/
private theorem inside_problems (plain : schema.PlainVariants)
    (variants : schema.WellFormedVariants)
    {node target : Node} {value part : Json} {path : Path} (fields : node.WellFormed) (wellFormed : value.WellFormed)
    (resolved : schema.descend node (some value) path = .ok target) (present : value.at? path = some part)
    (shaped : ∀ before step after, path = before ++ step :: after → ∃ inner rule middle,
      schema.descend node (some value) before = .ok inner ∧ value.at? before = some middle ∧
      schema.governor? inner middle = some rule ∧ Fits rule middle step) :
    Problem.inside path (schema.problems value node) =
      (schema.problems part target).map fun problem => { problem with path := path ++ problem.path } := by
  induction path generalizing node value with
  | nil =>
    cases resolved
    cases present
    exact Problem.inside_nil.trans (List.map_id' _).symm
  | cons step rest ih =>
    obtain ⟨inner, rule, middle, here, same, governs, fits⟩ := shaped [] step rest rfl
    cases here
    cases same
    obtain ⟨next, entered, resolved⟩ := descend_cons_eq_ok_iff.mp resolved
    obtain ⟨child, found, present⟩ := Option.bind_eq_some_iff.mp present
    have ruled := governing_of_governor? governs
    have own := plain.governor?_plain governs
    rw [ruled, enter?_of_plain own] at entered
    rw [Option.bind_some, found] at resolved
    have ruleFields := wellFormed_of_governor? fields variants governs
    have below := ih (ruleFields.of_within (within_of_below? entered)) (wellFormed.child found) resolved present ?_
    · rw [plain.problems_of_governor? governs,
        inside_heldProblems ruleFields wellFormed fits entered found, below, List.map_map]
      rfl
    · intro before other after split
      obtain ⟨inner, lower, middle, reached, stands, suits⟩ := shaped (step :: before) other after (by rw [split]; rfl)
      obtain ⟨first, same, reached⟩ := descend_cons_eq_ok_iff.mp reached
      rw [ruled, enter?_of_plain own, entered] at same
      cases same
      rw [Option.bind_some, found] at reached
      rw [Json.at?, found] at stands
      exact ⟨inner, lower, middle, reached, stands, suits⟩

private theorem isEmpty_of_asTag? {value : Json} {tag : String} (read : value.asTag? = some tag) : value.isEmpty = false := by
  unfold Json.asTag? at read
  split at read
  next given => cases value <;> simp [Json.isEmpty, given]
  · cases read

/-- The field of a tag takes any text that is not empty; what else may be read as a tag is no text. -/
theorem problems_tagField {value : Json} {read : String} (given : value.asTag? = some read) (tag : String) :
    schema.problems value (Node.tagField tag) = if value.string?.isSome then [] else [.here .notString] := by
  have ruled : schema.problems value (Node.tagField tag) = (Scalar.string [] (some tag)).problems true value :=
    problems_of_ruling schema (ruling_of_plain rfl greatestHops)
  rw [ruled, Scalar.problems, isEmpty_of_asTag? given, if_neg Bool.false_ne_true, Scalar.shapeProblems]
  cases value.string? <;> rfl

/-- A tag that selects a variant has no problem if it is a text, and just one if it is read from anything else. -/
theorem inside_tag {definitions : Entries Node} {node variant : Node} {d : Discriminator} {value raw : Json} {tag : String}
    (built : schema = build definitions) (fields : ∀ entry ∈ definitions, entry.2.WellFormed)
    (targets : ObjectTargets definitions) (wellFormed : value.WellFormed) (has : node.discriminator? = some d)
    (carried : value.member? d.property = some raw) (read : raw.asTag? = some tag)
    (selected : schema.variant? d tag = some variant) :
    Problem.inside [.key d.property] (schema.problems value node) =
      if raw.string?.isSome then [] else [⟨[.key d.property], .notString⟩] := by
  have sealed : schema.SealedVariants := built ▸ sealedVariants_build fields targets
  have tagged : value.tag? d.property = some tag := by rw [Json.tag?, carried, Option.bind_some, read]
  have governs : schema.governor? node value = some variant :=
    governor?_eq_some_iff.mpr (.inr ⟨d, tag, has, tagged, selected⟩)
  obtain ⟨own, _, _, header, properties, rfl, pinned⟩ := sealed d tag variant selected
  cases value with
  | obj members =>
    have found : (Json.obj members).child? (.key d.property) = some raw := carried
    rw [sealed.plain.problems_of_governor? governs, inside_heldProblems own wellFormed .field pinned found,
      Problem.inside_nil, problems_tagField read]
    split <;> rfl
  | null | bool | num | str | arr => cases carried

def lighting : Discriminator := ⟨"lit", [("true", "#/definitions/lamp")]⟩

def signal : Node := .scalar { discriminator := some lighting } Node.anyString

/-- A signal is a lamp whenever it is lit. -/
def signals : Entries Node := [("signal", signal), ("lamp", .object {} [])]

/-- A lamp's tag may be spelled out, or be read from the value that is spelled so. -/
theorem inside_tag_signals :
    Problem.inside [.key "lit"] ((build signals).problems (.obj [("lit", .str "true")]) signal) = [] ∧
    Problem.inside [.key "lit"] ((build signals).problems (.obj [("lit", .bool true)]) signal) =
      [⟨[.key "lit"], .notString⟩] := by
  have fields : ∀ entry ∈ signals, entry.2.WellFormed := by simp [signals, signal, lighting, Entries.Distinct, Entries.keys]
  have wellFormed (raw : Json) (whole : raw.WellFormed) : (Json.obj [("lit", raw)]).WellFormed := by
    simpa [Json.WellFormed, Json.MembersWellFormed, Entries.Distinct, Entries.keys] using whole
  have has : signal.discriminator? = some lighting := rfl
  have selected : (build signals).variant? lighting "true" = some _ := rfl
  constructor
  · exact inside_tag rfl fields (by decide) (wellFormed (.str "true") trivial) has rfl rfl selected
  · exact inside_tag rfl fields (by decide) (wellFormed (.bool true) trivial) has rfl rfl selected

/-- The tag of a lit lamp selects its variant, and is a problem all the same. -/
theorem problems_of_read_tag :
    ObjectTargets signals ∧ ((build signals).selected? signal (some (.obj [("lit", .bool true)]))).isSome ∧
    (build signals).problems (.obj [("lit", .bool true)]) signal = [⟨[.key "lit"], .notString⟩] := by
  exact ⟨by decide, rfl, rfl⟩

end Schema

namespace Editor

/-- Validation of a part is validation of the whole, restricted to that part: the same problems in the same order. -/
theorem validateAt_eq_inside {editor : Editor} {definitions : Entries Node} {document part : Json} {path : Path}
    {target : Node} (built : editor.schema = Schema.build definitions)
    (fields : ∀ entry ∈ definitions, entry.2.WellFormed) (targets : PlainTargets definitions)
    (wellFormed : document.WellFormed) (resolved : editor.nodeAt path (some document) = .ok target)
    (present : document.at? path = some part)
    (shaped : ∀ before step after, path = before ++ step :: after → ∃ node rule value,
      editor.nodeAt before (some document) = .ok node ∧ document.at? before = some value ∧
      editor.schema.governor? node value = some rule ∧ Schema.Fits rule value step) :
    editor.validateAt document path = .ok (Problem.inside path (editor.validate document)) := by
  obtain ⟨root, found, reached⟩ := Schema.nodeAt_eq_ok_iff.mp resolved
  have resolved : editor.schema.nodeAt editor.root path (some document) = .ok target := resolved
  have whole : editor.validate document = editor.schema.problems document root := by rw [validate, found]
  have along : Problem.inside path (editor.schema.problems document root) =
      (editor.schema.problems part target).map fun problem => { problem with path := path ++ problem.path } := by
    rw [built] at found reached shaped ⊢
    refine Schema.inside_problems (Schema.plainVariants_build targets)
      (Schema.wellFormedVariants_build fields) (Schema.wellFormed_of_definition? fields found)
      wellFormed reached present fun before step after split => ?_
    obtain ⟨node, rule, value, walked, rest⟩ := shaped before step after split
    obtain ⟨other, same, walked⟩ := Schema.nodeAt_eq_ok_iff.mp walked
    rw [built, found] at same
    cases same
    exact ⟨node, rule, value, built ▸ walked, rest⟩
  simp only [validateAt, resolved, present, whole, along, bind, Except.bind, pure, Except.pure, Option.getD_some]

def fleet : Entries Node :=
  let web : Discriminator := ⟨"kind", [("web", "web")]⟩
  let text : Node := .scalar { required := true } Node.anyString
  [("fleet", .object {} [("servers", .array {} (.scalar { discriminator := some web } Node.anyString) none (some 1))]),
    ("web", .object {} [("host", text), ("ports", .map {} text)])]

/-- A server with two bad ports, among too many servers, a missing host and two unknown keys. -/
def outage : Json :=
  .obj [("servers", .arr [
      .obj [("kind", .str "web"), ("ports", .obj [("a", .str ""), ("b", .bool true)])],
      .obj [("kind", .str "web"), ("host", .str "h"), ("prots", .null)]]),
    ("server", .null)]

/-- Through an array, a variant and an object down to a map. -/
theorem validateAt_eq_inside_outage :
    (Editor.mk (Schema.build fleet) "fleet" standardSuffix).validateAt outage [.key "servers", .index 0, .key "ports"] =
      .ok (Problem.inside [.key "servers", .index 0, .key "ports"]
        ((Editor.mk (Schema.build fleet) "fleet" standardSuffix).validate outage)) ∧
    (Editor.mk (Schema.build fleet) "fleet" standardSuffix).validateAt outage [.key "servers", .index 0, .key "ports"] =
      .ok [⟨[.key "servers", .index 0, .key "ports", .key "a"], .empty⟩,
        ⟨[.key "servers", .index 0, .key "ports", .key "b"], .notString⟩] := by
  have fields : ∀ entry ∈ fleet, entry.2.WellFormed := by simp [fleet, Entries.Distinct, Entries.keys]
  have wellFormed : outage.WellFormed := by
    simp [outage, Json.WellFormed, Json.AllWellFormed, Json.MembersWellFormed, Entries.Distinct, Entries.keys]
  have resolved : (Editor.mk (Schema.build fleet) "fleet" standardSuffix).nodeAt
      [.key "servers", .index 0, .key "ports"] (some outage) =
      .ok (.map {} (.scalar { required := true } Node.anyString)) := rfl
  have same := validateAt_eq_inside rfl fields (by decide) wellFormed resolved rfl fun before step after split => by
    rcases before with _ | ⟨first, _ | ⟨second, _ | ⟨third, before⟩⟩⟩
    · cases split
      exact ⟨_, _, _, rfl, rfl, rfl, .field⟩
    · cases split
      exact ⟨_, _, _, rfl, rfl, rfl, .element⟩
    · cases split
      exact ⟨_, _, _, rfl, rfl, rfl, .field⟩
    · simp at split
  exact ⟨same, same.trans rfl⟩

end Editor

end SchemaGuide
