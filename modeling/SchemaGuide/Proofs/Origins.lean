import SchemaGuide.Editor
import SchemaGuide.Proofs.Surroundings

/-! Where problems come from. Validation visits a document part by part, and every problem is the fault of one part that
it visits; an unknown key is the only one that lies beyond its part. Navigation follows one tag where validation follows
several. As long as no tag on the way leads to another one, it comes to the same parts and fails at unknown keys alone. -/

namespace SchemaGuide

theorem Problem.category_eq_unknownKey_iff {problem : Problem} :
    problem.category = .unknownKey ↔ ∃ key, problem.cause = .unknownKey key := by
  unfold category
  cases problem.cause <;> simp [Cause.category]

namespace Schema

/-- Validation comes from a value to a part of it, at every step through the body that the tags of the value lead to. -/
inductive Visits (schema : Schema) : Node → Json → Path → Node → Json → Prop where
  | here {node : Node} {value : Json} : Visits schema node value [] node value
  | step {node rule next target : Node} {value part last : Json} {step : Step} {rest : Path}
      (ruled : schema.ruling value greatestHops node = .ok rule) (fits : Fits rule value step)
      (entered : below? rule step = some next) (found : value.child? step = some part)
      (further : Visits schema next part rest target last) : Visits schema node value (step :: rest) target last

/-- What is wrong with a value apart from its parts. -/
inductive Fault (schema : Schema) (node : Node) (value : Json) : Problem → Prop where
  | lost {cause : Cause} (lost : schema.ruling value greatestHops node = .error cause) : Fault schema node value (.here cause)
  | unknown {header : Header} {properties : Entries Node} {key : String}
      (ruled : schema.ruling value greatestHops node = .ok (.object header properties))
      (undeclared : properties.lookup key = none) : Fault schema node value ⟨[.key key], .unknownKey key⟩
  | missing {header : Header} {properties : Entries Node}
      (ruled : schema.ruling value greatestHops node = .ok (.object header properties)) :
      Fault schema node value (.here (.missing (lacking value properties)))
  | length {header : Header} {element : Node} {minItems maxItems : Option Int} {problem : Problem}
      (ruled : schema.ruling value greatestHops node = .ok (.array header element minItems maxItems))
      (member : problem ∈ lengthProblems value.items.length minItems maxItems) : Fault schema node value problem
  | scalar {header : Header} {form : Scalar} {problem : Problem}
      (ruled : schema.ruling value greatestHops node = .ok (.scalar header form))
      (member : problem ∈ form.problems header.required value) : Fault schema node value problem

variable {schema : Schema} {node rule target : Node} {value last : Json} {path : Path} {problem : Problem}

/-- A fault is at the value itself, but for a key that the value has and its body does not know. -/
theorem Fault.cases_unknown (fault : schema.Fault node value problem) :
    (problem.path = [] ∧ problem.category ≠ .unknownKey) ∨
      ∃ key header properties, schema.ruling value greatestHops node = .ok (.object header properties) ∧
        properties.lookup key = none ∧ problem = ⟨[.key key], .unknownKey key⟩ := by
  cases fault with
  | lost lost =>
    refine .inl ⟨rfl, ?_⟩
    intro unknown
    obtain ⟨key, same⟩ := Problem.category_eq_unknownKey_iff.mp unknown
    exact ruling_error_ne_unknownKey lost key same
  | unknown ruled undeclared => exact .inr ⟨_, _, _, ruled, undeclared, rfl⟩
  | missing ruled => exact .inl ⟨rfl, nofun⟩
  | length ruled member =>
    obtain ⟨bound, rfl | rfl⟩ := mem_lengthProblems member
    · exact .inl ⟨rfl, nofun⟩
    · exact .inl ⟨rfl, nofun⟩
  | scalar ruled member =>
    refine .inl ⟨(Scalar.here_of_mem_problems member).1, ?_⟩
    intro unknown
    obtain ⟨key, same⟩ := Problem.category_eq_unknownKey_iff.mp unknown
    exact Scalar.cause_ne_unknownKey member key same

/-- Names are missing where a tag is not given, and where an object lacks fields. -/
theorem Fault.missing_cases {names : List String} (fault : schema.Fault node value problem)
    (same : problem.cause = .missing names) : problem.path = [] ∧
      (schema.ruling value greatestHops node = .error (.missing names) ∨
        ∃ header properties, schema.ruling value greatestHops node = .ok (.object header properties) ∧
          names = lacking value properties) := by
  cases fault with
  | lost lost =>
    cases same
    exact ⟨rfl, .inl lost⟩
  | unknown => cases same
  | missing ruled =>
    cases same
    exact ⟨rfl, .inr ⟨_, _, ruled, rfl⟩⟩
  | length ruled member => obtain ⟨bound, rfl | rfl⟩ := mem_lengthProblems member <;> cases same
  | scalar ruled member => exact absurd same (Scalar.cause_ne_missing member names)

theorem ruling_cases {hops : Nat} (ruled : schema.ruling value hops node = .ok rule) :
    rule = node ∨ ∃ d tag, schema.variant? d tag = some rule := by
  induction hops generalizing node with
  | zero =>
    cases ruled
    exact .inl rfl
  | succ hops ih =>
    unfold ruling at ruled
    split at ruled
    · cases ruled
      exact .inl rfl
    next d has =>
      split at ruled
      · cases ruled
      next tag tagged =>
        split at ruled
        · cases ruled
        next variant led =>
          rcases ih ruled with same | other
          · exact .inr ⟨d, tag, same ▸ led⟩
          · exact .inr other

theorem wellFormed_of_ruling (fields : node.WellFormed)
    (variants : schema.WellFormedVariants) {hops : Nat}
    (ruled : schema.ruling value hops node = .ok rule) : rule.WellFormed := by
  rcases ruling_cases ruled with rfl | ⟨d, tag, led⟩
  · exact fields
  · exact variants d tag rule led

/-- A problem is the fault of the value or of one of the parts that its body has nodes for. -/
theorem fault_or_exists_of_mem_problems (fields : node.WellFormed)
    (variants : schema.WellFormedVariants) (wellFormed : value.WellFormed)
    (member : problem ∈ schema.problems value node) :
    schema.Fault node value problem ∨ ∃ rule step next part, schema.ruling value greatestHops node = .ok rule ∧
      Fits rule value step ∧ below? rule step = some next ∧ value.child? step = some part ∧
      ∃ deeper ∈ schema.problems part next, problem = deeper.under step := by
  rw [problems_eq] at member
  split at member
  next cause lost =>
    cases List.mem_singleton.mp member
    exact .inl (.lost lost)
  next rule ruled =>
    have ruleFields := wellFormed_of_ruling fields variants ruled
    cases rule with
    | object header properties =>
      rw [heldProblems_object, List.mem_append, List.mem_append] at member
      obtain (member | member) | member := member
      · obtain ⟨entry, declared, part, found, deeper, below, rfl⟩ := mem_declaredProblems.mp member
        have entered : below? (.object header properties) (.key entry.1) = some entry.2 :=
          (ruleFields header properties .here).lookup_of_mem declared
        cases value with
        | obj members => exact .inr ⟨_, _, _, part, ruled, .field, entered, found, deeper, below, rfl⟩
        | null | bool | num | str | arr => cases found
      · obtain ⟨key, _, undeclared, rfl⟩ := mem_unknownProblems.mp member
        exact .inl (.unknown ruled (Entries.lookup_eq_none_iff.mpr undeclared))
      · obtain ⟨_, rfl⟩ := mem_missingProblems.mp member
        exact .inl (.missing ruled)
    | array header element minItems maxItems =>
      rw [heldProblems_array, List.mem_append] at member
      obtain member | member := member
      · exact .inl (.length ruled member)
      · obtain ⟨⟨item, position⟩, listed, member⟩ := List.mem_flatMap.mp member
        obtain ⟨deeper, below, rfl⟩ := List.mem_map.mp member
        have present : value.items[position]? = some item := List.mem_zipIdx_iff_getElem?.mp listed
        cases value with
        | arr elements => exact .inr ⟨_, .index position, _, item, ruled, .element, rfl, present, deeper, below, rfl⟩
        | null | bool | num | str | obj => cases present
    | map header element =>
      rw [heldProblems_map] at member
      obtain ⟨⟨key, part⟩, listed, member⟩ := List.mem_flatMap.mp member
      obtain ⟨deeper, below, rfl⟩ := List.mem_map.mp member
      cases value with
      | obj members =>
        have found : members.lookup key = some part := wellFormed.distinct.lookup_of_mem listed
        exact .inr ⟨_, .key key, _, part, ruled, .entry, rfl, found, deeper, below, rfl⟩
      | null | bool | num | str | arr => cases listed
    | scalar header form => exact .inl (.scalar ruled member)

/-- Every problem is the fault of a part that validation visits, and a problem of this part on its own. -/
theorem exists_visits_of_mem_problems (fields : node.WellFormed)
    (variants : schema.WellFormedVariants) (wellFormed : value.WellFormed)
    (member : problem ∈ schema.problems value node) :
    ∃ path target part own, schema.Visits node value path target part ∧ schema.Fault target part own ∧
      own ∈ schema.problems part target ∧ problem = own.underPath path := by
  induction value using Json.induction_on_parts generalizing node problem with
  | step value entries items =>
    rcases fault_or_exists_of_mem_problems fields variants wellFormed member with
      fault | ⟨rule, step, next, part, ruled, fits, entered, found, deeper, below, rfl⟩
    · exact ⟨[], node, value, problem, .here, fault, member, rfl⟩
    · have nextFields := (wellFormed_of_ruling fields variants ruled).of_within (within_of_below? entered)
      have partWellFormed := wellFormed.child found
      have visited : ∃ path target last own, schema.Visits next part path target last ∧
          schema.Fault target last own ∧ own ∈ schema.problems last target ∧ deeper = own.underPath path := by
        rcases Json.child?_cases found with ⟨inside, _⟩ | ⟨_, position, _, inside⟩
        · exact entries _ (Json.mem_entries_of_member? inside) nextFields partWellFormed below
        · exact items _ (List.mem_of_getElem? inside) nextFields partWellFormed below
      obtain ⟨path, target, last, own, visits, fault, reported, rfl⟩ := visited
      exact ⟨step :: path, target, last, own, .step ruled fits entered found visits, fault, reported, rfl⟩

theorem mem_problems_of_part {next : Node} {part : Json} {step : Step} {deeper : Problem}
    (ruled : schema.ruling value greatestHops node = .ok rule) (fits : Fits rule value step)
    (entered : below? rule step = some next) (found : value.child? step = some part)
    (member : deeper ∈ schema.problems part next) : deeper.under step ∈ schema.problems value node := by
  rw [problems_of_ruling schema ruled]
  cases fits with
  | @field header properties members key =>
    rw [heldProblems_object, List.append_assoc]
    apply List.mem_append_left
    exact mem_declaredProblems.mpr ⟨(key, next), Entries.mem_of_lookup entered, part, found, deeper, member, rfl⟩
  | @entry header element members key =>
    cases entered
    rw [heldProblems_map]
    exact List.mem_flatMap.mpr ⟨(key, part), Entries.mem_of_lookup found, List.mem_map_of_mem member⟩
  | @element header element minItems maxItems elements position =>
    cases entered
    rw [heldProblems_array]
    apply List.mem_append_right
    exact List.mem_flatMap.mpr ⟨(part, position), List.mem_zipIdx_iff_getElem?.mpr found, List.mem_map_of_mem member⟩

/-- What is wrong with a part that validation visits is reported of the whole. -/
theorem Visits.mem_problems {own : Problem} (visits : schema.Visits node value path target last)
    (member : own ∈ schema.problems last target) : own.underPath path ∈ schema.problems value node := by
  induction visits with
  | here => exact member
  | step ruled fits entered found further ih => exact mem_problems_of_part ruled fits entered found (ih member)

theorem Visits.wellFormed (visits : schema.Visits node value path target last) (variants : schema.WellFormedVariants)
    (fields : node.WellFormed) : target.WellFormed := by
  induction visits with
  | here => exact fields
  | step ruled fits entered found further ih =>
    exact ih ((wellFormed_of_ruling fields variants ruled).of_within (within_of_below? entered))

theorem Visits.at? (visits : schema.Visits node value path target last) : value.at? path = some last := by
  induction visits with
  | here => rfl
  | step ruled fits entered found further ih => rw [Json.at?, found, Option.bind_some, ih]

/-- The value selects no variant that has a discriminator of its own. -/
def Unchained (schema : Schema) (node : Node) (given : Option Json) : Prop :=
  ∀ variant, schema.selected? node given = some variant → variant.discriminator? = none

theorem governing_of_ruling (single : schema.Unchained node (some value))
    (ruled : schema.ruling value greatestHops node = .ok rule) :
    schema.governing node (some value) = rule ∧ rule.discriminator? = none := by
  cases selected : schema.selected? node (some value) with
  | some variant =>
    cases (ruling_of_selected selected (single variant selected)).symm.trans ruled
    exact ⟨by rw [governing, selected, Option.getD_some], single rule selected⟩
  | none =>
    rw [governing_of_unselected selected]
    rw [greatestHops, ruling] at ruled
    split at ruled
    next plain =>
      cases ruled
      exact ⟨rfl, plain⟩
    next d has =>
      split at ruled
      · cases ruled
      next tag tagged =>
        split at ruled
        · cases ruled
        next variant led =>
          have chosen := selected?_eq_some_iff.mpr ⟨d, value, tag, has, rfl, tagged, led⟩
          cases selected.symm.trans chosen

/-- What validation looks for below a step is what navigation looks for. -/
theorem enter?_of_ruling (single : schema.Unchained node (some value))
    (ruled : schema.ruling value greatestHops node = .ok rule) (step : Step) :
    schema.enter? (schema.governing node (some value)) step = below? rule step := by
  obtain ⟨same, plain⟩ := governing_of_ruling single ruled
  rw [same, enter?_of_plain plain]

theorem Visits.descend_eq_ok (visits : schema.Visits node value path target last)
    (along : schema.Along (fun inner given _ => schema.Unchained inner given) node (some value) path) :
    schema.descend node (some value) path = .ok target := by
  induction visits with
  | here => rfl
  | @step _ _ next _ _ part _ _ _ ruled fits entered found further ih =>
    have walked := (enter?_of_ruling along.head ruled _).trans entered
    have deeper := along.tail walked
    rw [Option.bind_some, found] at deeper
    apply descend_cons_eq_ok_iff.mpr
    refine ⟨next, walked, ?_⟩
    rw [Option.bind_some, found]
    exact ih deeper

theorem descend_append_of_error {given : Option Json} {first rest failed : Path} {middle : Node}
    (reached : schema.descend node given first = .ok middle)
    (fails : schema.descend middle (given.bind (·.at? first)) rest = .error failed) :
    schema.descend node given (first ++ rest) = .error (first ++ failed) := by
  induction first generalizing node given with
  | nil =>
    cases reached
    rw [Json.bind_at?_nil] at fails
    exact fails
  | cons step first ih =>
    obtain ⟨next, entered, reached⟩ := descend_cons_eq_ok_iff.mp reached
    rw [Json.bind_at?_cons] at fails
    rw [List.cons_append, descend, entered]
    simp only [ih reached fails]
    rfl

/-- Navigation comes to the part that is at fault for a problem. -/
theorem exists_fault_of_mem_problems (fields : node.WellFormed)
    (variants : schema.WellFormedVariants) (wellFormed : value.WellFormed)
    (member : problem ∈ schema.problems value node)
    (along : schema.Along (fun inner given _ => schema.Unchained inner given) node (some value) problem.path) :
    ∃ path target part own, problem = own.underPath path ∧ schema.descend node (some value) path = .ok target ∧
      value.at? path = some part ∧ schema.Fault target part own := by
  obtain ⟨path, target, part, own, visits, fault, _, rfl⟩ :=
    exists_visits_of_mem_problems fields variants wellFormed member
  have longer : schema.Along (fun inner given _ => schema.Unchained inner given) node (some value) (path ++ own.path) := along
  exact ⟨path, target, part, own, rfl, visits.descend_eq_ok longer.of_append, visits.at?, fault⟩

/-- Navigation comes to every problem, but for unknown keys, at which it fails. -/
theorem descend_of_mem_problems (fields : node.WellFormed)
    (variants : schema.WellFormedVariants) (wellFormed : value.WellFormed)
    (member : problem ∈ schema.problems value node)
    (along : schema.Along (fun inner given _ => schema.Unchained inner given) node (some value) problem.path) :
    (problem.category = .unknownKey → schema.descend node (some value) problem.path = .error problem.path) ∧
    (problem.category ≠ .unknownKey → ∃ target, schema.descend node (some value) problem.path = .ok target) := by
  obtain ⟨path, target, part, own, rfl, reached, stands, fault⟩ :=
    exists_fault_of_mem_problems fields variants wellFormed member along
  rcases fault.cases_unknown with ⟨root, known⟩ | ⟨key, header, properties, ruled, undeclared, rfl⟩
  · rw [Problem.path_underPath root]
    exact ⟨fun unknown => absurd unknown known, fun _ => ⟨target, reached⟩⟩
  · have chosen : schema.Unchained target (some part) := by
      have final := along path (.key key) [] target rfl reached
      rwa [Option.bind_some, stands] at final
    have closed : schema.enter? (schema.governing target (some part)) (.key key) = none :=
      (enter?_of_ruling chosen ruled (.key key)).trans undeclared
    have fails : schema.descend target ((some value).bind (·.at? path)) [.key key] = .error [.key key] := by
      rw [Option.bind_some, stands, descend, closed]
    exact ⟨fun _ => descend_append_of_error reached fails, fun known => absurd rfl known⟩

end Schema

namespace Editor

/-- Navigation leads to every problem that validation reports and fails at unknown keys alone, as long as no tag on the way
selects a variant with a discriminator of its own. -/
theorem nodeAt_of_mem_validate {editor : Editor} {definitions : Entries Node} {root : Node} {document : Json}
    {problem : Problem} (built : editor.schema = Schema.build definitions)
    (fields : ∀ entry ∈ definitions, entry.2.WellFormed) (wellFormed : document.WellFormed)
    (known : editor.schema.definition? editor.root = some root) (reported : problem ∈ editor.validate document)
    (along : editor.schema.Along (fun node value _ => editor.schema.Unchained node value) root (some document)
      problem.path) :
    (problem.category = .unknownKey →
      editor.nodeAt problem.path (some document) = .error (.invalidPath editor.root problem.path)) ∧
    (problem.category ≠ .unknownKey → ∃ node, editor.nodeAt problem.path (some document) = .ok node) := by
  have variants : editor.schema.WellFormedVariants := built ▸ Schema.wellFormedVariants_build fields
  have rootFields : root.WellFormed := Schema.wellFormed_of_definition? fields (built ▸ known)
  have walk : editor.nodeAt problem.path (some document) =
      (editor.schema.descend root (some document) problem.path).mapError (.invalidPath editor.root) := by
    rw [nodeAt, Schema.nodeAt, known]
  rw [validate, known] at reported
  obtain ⟨fails, arrives⟩ := Schema.descend_of_mem_problems rootFields variants wellFormed reported along
  constructor
  · intro unknown
    rw [walk, fails unknown]
    rfl
  · intro other
    obtain ⟨target, reached⟩ := arrives other
    exact ⟨target, walk.trans (by rw [reached]; rfl)⟩

def junction : Node :=
  .object {} [("direct", .object { discriminator := some ⟨"kind", [("end", "End")]⟩ } []),
    ("relayed", .object { discriminator := some ⟨"kind", [("hop", "Hop")]⟩ } [])]

/-- What is relayed goes by two tags, one behind the other. -/
def routes : Entries Node :=
  [("Root", junction),
    ("Hop", .object { discriminator := some ⟨"next", [("end", "End")]⟩ } [("delay", .scalar {} Node.anyString)]),
    ("End", .object {} [("name", .scalar { required := true } Node.anyString)])]

def delivery : Json :=
  .obj [("direct", .obj [("kind", .str "end"), ("name", .str ""), ("speed", .null)]),
    ("relayed", .obj [("kind", .str "hop"), ("next", .str "end"), ("name", .str ""), ("delay", .str "1")])]

/-- The tag of the direct route leads to its problems, though another tag of the schema has one behind it. -/
theorem nodeAt_of_mem_validate_delivery :
    (∃ node, (Editor.mk (Schema.build routes) "Root" standardSuffix).nodeAt [.key "direct", .key "name"] (some delivery) =
      .ok node) ∧
    (Editor.mk (Schema.build routes) "Root" standardSuffix).nodeAt [.key "direct", .key "speed"] (some delivery) =
      .error (.invalidPath "Root" [.key "direct", .key "speed"]) := by
  have fields : ∀ entry ∈ routes, entry.2.WellFormed := by simp [routes, junction, Entries.Distinct, Entries.keys]
  have wellFormed : delivery.WellFormed := by
    simp [delivery, Json.WellFormed, Json.MembersWellFormed, Entries.Distinct, Entries.keys]
  have known : (Editor.mk (Schema.build routes) "Root" standardSuffix).schema.definition? "Root" = some junction := rfl
  have along (key : String) : (Schema.build routes).Along (fun node value _ => (Schema.build routes).Unchained node value)
      junction (some delivery) [.key "direct", .key key] := by
    intro before step after inner split reached variant selected
    rcases before with _ | ⟨first, _ | ⟨second, before⟩⟩
    · cases reached
      cases selected
    · cases split
      cases reached
      cases selected
      rfl
    · simp at split
  constructor
  · have reported : ⟨[.key "direct", .key "name"], .empty⟩ ∈
        (Editor.mk (Schema.build routes) "Root" standardSuffix).validate delivery := .head _
    exact (nodeAt_of_mem_validate rfl fields wellFormed known reported (along "name")).2 (by decide)
  · have reported : ⟨[.key "direct", .key "speed"], .unknownKey "speed"⟩ ∈
        (Editor.mk (Schema.build routes) "Root" standardSuffix).validate delivery := .tail _ (.head _)
    exact (nodeAt_of_mem_validate rfl fields wellFormed known reported (along "speed")).1 rfl

/-- Behind two tags validation holds the route to its end and navigation stops at the hop: an empty field cannot be reached,
and a key that is not known can. -/
theorem nodeAt_behind_two_tags :
    ⟨[.key "relayed", .key "name"], .empty⟩ ∈ (Editor.mk (Schema.build routes) "Root" standardSuffix).validate delivery ∧
    (Editor.mk (Schema.build routes) "Root" standardSuffix).nodeAt [.key "relayed", .key "name"] (some delivery) =
      .error (.invalidPath "Root" [.key "relayed", .key "name"]) ∧
    ⟨[.key "relayed", .key "delay"], .unknownKey "delay"⟩ ∈
      (Editor.mk (Schema.build routes) "Root" standardSuffix).validate delivery ∧
    (Editor.mk (Schema.build routes) "Root" standardSuffix).nodeAt [.key "relayed", .key "delay"] (some delivery) =
      .ok (.scalar {} Node.anyString) :=
  ⟨by decide, rfl, by decide, rfl⟩

end Editor

end SchemaGuide
