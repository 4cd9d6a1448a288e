import SchemaGuide.Proofs.Parts
import SchemaGuide.Schema.Validation

/-! The problems of a value in terms of the problems of its parts. Validation walks a value once and hands the checks of
its parts to the node that rules it; read from outside, the parts are simply validated on their own. -/

namespace SchemaGuide

namespace Scalar

variable {form : Scalar} {required : Bool} {value : Json} {problem : Problem}

/-- The categories of what may be wrong with a scalar. -/
def categories : List Category :=
  [.valueRequired, .notAllowed, .notNumber, .belowMinimum, .aboveMaximum, .notBoolean, .notString]

/-- What is wrong with a scalar is wrong with its value, which has no parts. -/
theorem here_of_mem_problems (member : problem ∈ form.problems required value) :
    problem.path = [] ∧ problem.category ∈ categories := by
  unfold problems shapeProblems rangeProblems at member
  grind [Problem.here, Problem.category, Cause.category, categories]

/-- A scalar is never at fault for its keys. -/
theorem cause_ne_unknownKey (member : problem ∈ form.problems required value) (key : String) :
    problem.cause ≠ .unknownKey key := by
  intro same
  have listed : Category.unknownKey ∈ categories := by
    have own := (here_of_mem_problems member).2
    rwa [Problem.category, same] at own
  exact absurd listed (by decide)

theorem cause_ne_missing (member : problem ∈ form.problems required value) (names : List String) :
    problem.cause ≠ .missing names := by
  intro same
  have listed : Category.requiredField ∈ categories := by
    have own := (here_of_mem_problems member).2
    rwa [Problem.category, same] at own
  exact absurd listed (by decide)

theorem mem_rangeProblems {minimum maximum : Option Float} {x : Float} :
    problem ∈ rangeProblems minimum maximum x ↔
      (∃ bound, minimum = some bound ∧ bound != 0.0 ∧ x < bound ∧ problem = .here (.below bound)) ∨
        ∃ bound, maximum = some bound ∧ bound != 0.0 ∧ bound < x ∧ problem = .here (.above bound) := by
  unfold rangeProblems
  rw [List.mem_append]
  refine or_congr ?_ ?_
  · cases minimum with
    | none => simp
    | some bound => cases binds : bound != 0.0 <;> simp [Option.filter, binds]
  · cases maximum with
    | none => simp
    | some bound => cases binds : bound != 0.0 <;> simp [Option.filter, binds]

end Scalar

namespace Schema

variable (schema : Schema)

private theorem memberChecks_eq_map (members : List (String × Json)) :
    schema.memberChecks members = members.map fun entry => (entry.1, schema.problems entry.2) := by
  induction members with
  | nil => rfl
  | cons entry rest ih => rw [memberChecks, ih, List.map_cons]

private theorem elementChecks_eq_map (elements : List Json) :
    schema.elementChecks elements = elements.map schema.problems := by
  induction elements with
  | nil => rfl
  | cons element rest ih => rw [elementChecks, ih, List.map_cons]

/-- The problems of a value against the body of one node. -/
def heldProblems (value : Json) (rule : Node) : List Problem :=
  bodyProblems value (value.entries.map fun entry => (entry.1, schema.problems entry.2))
    (value.items.map schema.problems) rule

theorem problems_eq (value : Json) (node : Node) :
    schema.problems value node = match schema.ruling value greatestHops node with
      | .error cause => [.here cause]
      | .ok rule => schema.heldProblems value rule := by
  cases value with
  | obj members => rw [problems, memberChecks_eq_map]; rfl
  | arr elements => rw [problems, elementChecks_eq_map]; rfl
  | null | bool | num | str => rfl

theorem problems_of_ruling {value : Json} {node rule : Node} (ruled : schema.ruling value greatestHops node = .ok rule) :
    schema.problems value node = schema.heldProblems value rule := by
  rw [problems_eq, ruled]

private theorem lookup_checks (value : Json) (key : String) :
    (value.entries.map fun entry => (entry.1, schema.problems entry.2)).lookup key =
      (value.member? key).map schema.problems := by
  rw [Json.member?_eq_lookup]
  exact Entries.lookup_map_value schema.problems key value.entries

def declaredProblems (value : Json) (properties : Entries Node) : List Problem :=
  properties.flatMap fun entry =>
    match value.member? entry.1 with
    | none => []
    | some part => (schema.problems part entry.2).map (.under (.key entry.1))

def unknownProblems (value : Json) (properties : Entries Node) : List Problem :=
  ((Entries.keys value.entries).filter (!(Entries.keys properties).contains ·)).map fun key => ⟨[.key key], .unknownKey key⟩

def lacking (value : Json) (properties : Entries Node) : List String :=
  (properties.filter fun entry => entry.2.isRequired && (value.member? entry.1).isNone).map Prod.fst

/-- All missing fields are one problem of the object that lacks them. -/
def missingProblems (fields : List String) : List Problem := if fields.isEmpty then [] else [Problem.here (.missing fields)]

theorem heldProblems_object (value : Json) (header : Header) (properties : Entries Node) :
    schema.heldProblems value (.object header properties) =
      schema.declaredProblems value properties ++ unknownProblems value properties ++
        missingProblems (lacking value properties) := by
  have keys : Entries.keys (value.entries.map fun entry => (entry.1, schema.problems entry.2)) =
      Entries.keys value.entries := by
    simp [Entries.keys]
  simp only [heldProblems, bodyProblems, declaredProblems, unknownProblems, missingProblems, lacking, lookup_checks, keys,
    Option.isNone_map]
  congr 3
  funext entry
  cases value.member? entry.1 <;> rfl

theorem heldProblems_array (value : Json) (header : Header) (node : Node) (minItems maxItems : Option Int) :
    schema.heldProblems value (.array header node minItems maxItems) =
      lengthProblems value.items.length minItems maxItems ++
        value.items.zipIdx.flatMap fun entry => (schema.problems entry.1 node).map (.under (.index entry.2)) := by
  simp only [heldProblems, bodyProblems, List.length_map, List.zipIdx_map, List.flatMap_map]
  rfl

theorem heldProblems_map (value : Json) (header : Header) (node : Node) :
    schema.heldProblems value (.map header node) =
      value.entries.flatMap fun entry => (schema.problems entry.2 node).map (.under (.key entry.1)) := by
  simp only [heldProblems, bodyProblems, List.flatMap_map]

variable {schema} {value : Json} {properties : Entries Node} {problem : Problem}

theorem mem_declaredProblems : problem ∈ schema.declaredProblems value properties ↔ ∃ entry ∈ properties, ∃ part,
    value.member? entry.1 = some part ∧ ∃ deeper ∈ schema.problems part entry.2, problem = deeper.under (.key entry.1) := by
  rw [declaredProblems, List.mem_flatMap]
  refine exists_congr fun entry => and_congr_right fun _ => ?_
  cases value.member? entry.1 with
  | none => simp
  | some part => simp [eq_comm]

theorem mem_unknownProblems : problem ∈ unknownProblems value properties ↔ ∃ key ∈ Entries.keys value.entries,
    key ∉ Entries.keys properties ∧ problem = ⟨[.key key], .unknownKey key⟩ := by
  rw [unknownProblems, List.mem_map]
  constructor
  · intro member
    obtain ⟨key, listed, rfl⟩ := member
    obtain ⟨present, unknown⟩ := List.mem_filter.mp listed
    exact ⟨key, present, by simpa using unknown, rfl⟩
  · intro member
    obtain ⟨key, present, unknown, rfl⟩ := member
    exact ⟨key, List.mem_filter.mpr ⟨present, by simpa using unknown⟩, rfl⟩

theorem mem_lacking {field : String} : field ∈ lacking value properties ↔
    ∃ child, (field, child) ∈ properties ∧ child.isRequired ∧ value.member? field = none := by
  simp [lacking]

theorem nodup_lacking (distinct : Entries.Distinct properties) : (lacking value properties).Nodup :=
  List.Nodup.sublist (List.filter_sublist.map Prod.fst) distinct

theorem mem_missingProblems {fields : List String} :
    problem ∈ missingProblems fields ↔ fields ≠ [] ∧ problem = .here (.missing fields) := by
  cases fields <;> simp [missingProblems]

theorem missingProblems_eq_nil_iff {fields : List String} : missingProblems fields = [] ↔ fields = [] := by
  cases fields <;> simp [missingProblems]

theorem mem_lengthProblems_iff {length : Nat} {minItems maxItems : Option Int} :
    problem ∈ lengthProblems length minItems maxItems ↔
      (∃ bound, maxItems = some bound ∧ 0 ≤ bound ∧ bound < length ∧ problem = .here (.tooMany bound)) ∨
        ∃ bound, minItems = some bound ∧ 0 ≤ bound ∧ length < bound ∧ problem = .here (.tooFew bound) := by
  unfold lengthProblems
  rw [List.mem_append]
  refine or_congr ?_ ?_
  · cases maxItems with
    | none => simp
    | some bound => by_cases binds : 0 ≤ bound <;> simp [Option.filter, binds]
  · cases minItems with
    | none => simp
    | some bound => by_cases binds : 0 ≤ bound <;> simp [Option.filter, binds]

theorem mem_lengthProblems {length : Nat} {minItems maxItems : Option Int}
    (member : problem ∈ lengthProblems length minItems maxItems) :
    ∃ bound, problem = .here (.tooMany bound) ∨ problem = .here (.tooFew bound) := by
  rcases mem_lengthProblems_iff.mp member with ⟨bound, _, _, _, same⟩ | ⟨bound, _, _, _, same⟩
  · exact ⟨bound, .inl same⟩
  · exact ⟨bound, .inr same⟩

theorem declaredProblems_append (first second : Entries Node) : schema.declaredProblems value (first ++ second) =
    schema.declaredProblems value first ++ schema.declaredProblems value second := List.flatMap_append

theorem declaredProblems_cons {part : Json} {key : String} (found : value.member? key = some part) (node : Node) :
    schema.declaredProblems value ((key, node) :: properties) =
      (schema.problems part node).map (.under (.key key)) ++ schema.declaredProblems value properties := by
  rw [declaredProblems, List.flatMap_cons, found]
  rfl

theorem declaredProblems_cons_of_absent {key : String} (absent : value.member? key = none) (node : Node) :
    schema.declaredProblems value ((key, node) :: properties) = schema.declaredProblems value properties := by
  rw [declaredProblems, List.flatMap_cons, absent]
  rfl

/-- Only the members under declared keys have a part in the problems of declared fields. -/
theorem declaredProblems_congr {other : Json}
    (same : ∀ key ∈ Entries.keys properties, other.member? key = value.member? key) :
    schema.declaredProblems other properties = schema.declaredProblems value properties := by
  unfold declaredProblems
  refine congrArg List.flatten (List.map_congr_left fun entry member => ?_)
  rw [same entry.1 (List.mem_map_of_mem member)]

/-- Tags lead nowhere where one is not given, or is given and has no variant. -/
theorem ruling_error_cases {node : Node} {cause : Cause} {hops : Nat} (lost : schema.ruling value hops node = .error cause) :
    (∃ property, cause = .missing [property] ∧ value.tag? property = none) ∨ ∃ property tag, cause = .unknownTag property tag := by
  induction hops generalizing node with
  | zero => cases lost
  | succ hops ih =>
    unfold ruling at lost
    split at lost
    · cases lost
    next d has =>
      split at lost
      next untagged =>
        cases lost
        exact .inl ⟨d.property, rfl, untagged⟩
      next tag tagged =>
        split at lost
        · cases lost
          exact .inr ⟨d.property, tag, rfl⟩
        · exact ih lost

theorem ruling_error_ne_unknownKey {node : Node} {cause : Cause} {hops : Nat} (lost : schema.ruling value hops node = .error cause)
    (key : String) : cause ≠ .unknownKey key := by
  rcases ruling_error_cases lost with ⟨_, rfl, _⟩ | ⟨_, _, rfl⟩ <;> exact nofun

/-- A key that is not known is a problem of the object that has it, never of the value under the key. -/
theorem cause_ne_unknownKey_of_root {node : Node} (member : problem ∈ schema.problems value node) (root : problem.path = [])
    (key : String) : problem.cause ≠ .unknownKey key := by
  rw [problems_eq] at member
  split at member
  next cause lost =>
    cases List.mem_singleton.mp member
    exact ruling_error_ne_unknownKey lost key
  next rule ruled =>
    cases rule with
    | object header properties =>
      rw [heldProblems_object, List.mem_append, List.mem_append] at member
      obtain (member | member) | member := member
      · obtain ⟨_, _, _, _, _, _, rfl⟩ := mem_declaredProblems.mp member
        cases root
      · obtain ⟨_, _, _, rfl⟩ := mem_unknownProblems.mp member
        cases root
      · obtain ⟨_, rfl⟩ := mem_missingProblems.mp member
        exact nofun
    | array header element minItems maxItems =>
      rw [heldProblems_array, List.mem_append] at member
      obtain member | member := member
      · obtain ⟨bound, rfl | rfl⟩ := mem_lengthProblems member <;> exact nofun
      · obtain ⟨_, _, member⟩ := List.mem_flatMap.mp member
        obtain ⟨_, _, rfl⟩ := List.mem_map.mp member
        cases root
    | map header element =>
      rw [heldProblems_map] at member
      obtain ⟨_, _, member⟩ := List.mem_flatMap.mp member
      obtain ⟨_, _, rfl⟩ := List.mem_map.mp member
      cases root
    | scalar header form => exact Scalar.cause_ne_unknownKey member key

end Schema

end SchemaGuide
