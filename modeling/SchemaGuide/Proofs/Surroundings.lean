import SchemaGuide.Proofs.Governance
import SchemaGuide.Proofs.Validation

/-! A part of a document and what surrounds it. Change the part, and the problems of the document change where those of
the part stand and nowhere else: siblings, unknown keys, missing fields and lengths are as before, as long as the part is
not the tag that an object around it goes by. -/

namespace SchemaGuide

/-- The problem of a part at a path, as a problem of the whole. -/
def Problem.underPath (path : Path) (problem : Problem) : Problem := { problem with path := path ++ problem.path }

theorem Problem.path_underPath {path : Path} {problem : Problem} (root : problem.path = []) :
    (problem.underPath path).path = path := by
  rw [underPath, root, List.append_nil]

theorem Problem.underPath_here (path : Path) (cause : Cause) : (Problem.here cause).underPath path = ⟨path, cause⟩ := by
  simp [here, underPath]

/-- None of the problems concerns the part at the step. -/
def Problem.Avoid (step : Step) (problems : List Problem) : Prop :=
  ∀ problem ∈ problems, problem.path.head? ≠ some step

namespace Problem

variable {step : Step}

theorem avoid_append {first second : List Problem} :
    Avoid step (first ++ second) ↔ Avoid step first ∧ Avoid step second := List.forall_mem_append

theorem avoid_map_under {other : Step} (apart : other ≠ step) (problems : List Problem) :
    Avoid step (problems.map (.under other)) := by
  intro problem member same
  obtain ⟨deeper, _, rfl⟩ := List.mem_map.mp member
  exact apart (Option.some.inj same)

end Problem

namespace Schema

/-- The step has the form that the value and its governing node call for. -/
inductive Fits : Node → Json → Step → Prop where
  | field {header : Header} {properties : Entries Node} {members : Entries Json} {key : String} :
      Fits (.object header properties) (.obj members) (.key key)
  | entry {header : Header} {element : Node} {members : Entries Json} {key : String} :
      Fits (.map header element) (.obj members) (.key key)
  | element {header : Header} {element : Node} {minItems maxItems : Option Int} {elements : List Json} {position : Nat} :
      Fits (.array header element minItems maxItems) (.arr elements) (.index position)

variable {schema : Schema}

theorem avoid_declaredProblems {value : Json} {properties : Entries Node} {key : String}
    (absent : key ∉ Entries.keys properties) : Problem.Avoid (.key key) (schema.declaredProblems value properties) := by
  intro problem member same
  obtain ⟨entry, declared, _, _, deeper, _, rfl⟩ := mem_declaredProblems.mp member
  cases same
  exact absent (List.mem_map_of_mem declared)

theorem avoid_unknownProblems {value : Json} {properties : Entries Node} {key : String}
    (declared : key ∈ Entries.keys properties) : Problem.Avoid (.key key) (unknownProblems value properties) := by
  intro problem member same
  obtain ⟨other, _, unknown, rfl⟩ := mem_unknownProblems.mp member
  cases same
  exact unknown declared

private theorem avoid_missingProblems {step : Step} {fields : List String} :
    Problem.Avoid step (missingProblems fields) := by
  intro problem member
  rw [(mem_missingProblems.mp member).2]
  exact nofun

private theorem avoid_lengthProblems {step : Step} {length : Nat} {minItems maxItems : Option Int} :
    Problem.Avoid step (lengthProblems length minItems maxItems) := by
  intro problem member
  obtain ⟨bound, rfl | rfl⟩ := mem_lengthProblems member <;> exact nofun

private theorem heldProblems_field {header : Header} {properties : Entries Node} {next : Node} {members : Entries Json}
    {part : Json} {key : String} (distinct : Entries.Distinct properties) (entered : properties.lookup key = some next)
    (found : members.lookup key = some part) :
    ∃ before after, Problem.Avoid (.key key) (before ++ after) ∧ ∀ change : Json → Json,
      schema.heldProblems ((Json.obj members).adjustChild (.key key) change) (.object header properties) =
        before ++ (schema.problems (change part) next).map (.under (.key key)) ++ after := by
  obtain ⟨earlier, later, rfl, absentBefore, absentAfter⟩ := distinct.exists_split entered
  have declared : key ∈ Entries.keys (earlier ++ (key, next) :: later) := by simp [Entries.keys]
  refine ⟨schema.declaredProblems (.obj members) earlier, schema.declaredProblems (.obj members) later ++
    (unknownProblems (.obj members) (earlier ++ (key, next) :: later) ++
      missingProblems (lacking (.obj members) (earlier ++ (key, next) :: later))), ?_, ?_⟩
  · simp only [Problem.avoid_append]
    exact ⟨avoid_declaredProblems absentBefore, avoid_declaredProblems absentAfter, avoid_unknownProblems declared,
      avoid_missingProblems⟩
  · intro change
    have member (other : String) : ((Json.obj members).adjustChild (.key key) change).member? other =
        if other = key then ((Json.obj members).member? other).map change else (Json.obj members).member? other :=
      Json.member?_adjustChild (.obj members) (.key key) change other
    have here : ((Json.obj members).adjustChild (.key key) change).member? key = some (change part) :=
      (member key).trans ((if_pos rfl).trans (congrArg (Option.map change) found))
    have apart {fields : Entries Node} (absent : key ∉ Entries.keys fields) :
        schema.declaredProblems ((Json.obj members).adjustChild (.key key) change) fields =
          schema.declaredProblems (.obj members) fields := by
      refine declaredProblems_congr fun other listed => (member other).trans (if_neg ?_)
      intro same
      subst same
      exact absent listed
    have unknown (fields : Entries Node) : unknownProblems ((Json.obj members).adjustChild (.key key) change) fields =
        unknownProblems (.obj members) fields := by
      rw [unknownProblems, Json.keys_adjustChild]
      rfl
    have missing (fields : Entries Node) : lacking ((Json.obj members).adjustChild (.key key) change) fields =
        lacking (.obj members) fields := by
      refine congrArg (List.map Prod.fst) (List.filter_congr fun entry _ => ?_)
      rw [member]
      split <;> simp
    rw [heldProblems_object, declaredProblems_append, declaredProblems_cons here, apart absentBefore, apart absentAfter,
      unknown, missing]
    simp only [List.append_assoc]

private theorem heldProblems_entry {header : Header} {node : Node} {members : Entries Json} {part : Json} {key : String}
    (distinct : Entries.Distinct members) (found : members.lookup key = some part) :
    ∃ before after, Problem.Avoid (.key key) (before ++ after) ∧ ∀ change : Json → Json,
      schema.heldProblems ((Json.obj members).adjustChild (.key key) change) (.map header node) =
        before ++ (schema.problems (change part) node).map (.under (.key key)) ++ after := by
  obtain ⟨earlier, later, rfl, absentBefore, absentAfter⟩ := distinct.exists_split found
  let under (entry : String × Json) : List Problem := (schema.problems entry.2 node).map (.under (.key entry.1))
  refine ⟨earlier.flatMap under, later.flatMap under, ?_, ?_⟩
  · have apart {members : Entries Json} (absent : key ∉ Entries.keys members) :
        Problem.Avoid (.key key) (members.flatMap under) := by
      intro problem member
      obtain ⟨entry, listed, member⟩ := List.mem_flatMap.mp member
      have other : Step.key entry.1 ≠ .key key := by
        intro same
        cases same
        exact absent (List.mem_map_of_mem listed)
      exact Problem.avoid_map_under other _ problem member
    exact Problem.avoid_append.mpr ⟨apart absentBefore, apart absentAfter⟩
  · intro change
    have changed : ((Json.obj (earlier ++ (key, part) :: later)).adjustChild (.key key) change).entries =
        earlier ++ (key, change part) :: later := Entries.adjust_append_cons absentBefore part later change
    rw [heldProblems_map, changed, List.flatMap_append, List.flatMap_cons, ← List.append_assoc]

private theorem heldProblems_element {header : Header} {node : Node} {minItems maxItems : Option Int} {elements : List Json}
    {part : Json} {position : Nat} (found : elements[position]? = some part) :
    ∃ before after, Problem.Avoid (.index position) (before ++ after) ∧ ∀ change : Json → Json,
      schema.heldProblems ((Json.arr elements).adjustChild (.index position) change) (.array header node minItems maxItems) =
        before ++ (schema.problems (change part) node).map (.under (.index position)) ++ after := by
  obtain ⟨inside, rfl⟩ := List.getElem?_eq_some_iff.mp found
  let under (entry : Json × Nat) : List Problem := (schema.problems entry.1 node).map (.under (.index entry.2))
  have place : (elements.take position).length = position := List.length_take_of_le (Nat.le_of_lt inside)
  refine ⟨lengthProblems elements.length minItems maxItems ++ (elements.take position).zipIdx.flatMap under,
    ((elements.drop (position + 1)).zipIdx (position + 1)).flatMap under, ?_, ?_⟩
  · have apart (list : List (Json × Nat)) (others : ∀ entry ∈ list, entry.2 ≠ position) :
        Problem.Avoid (.index position) (list.flatMap under) := by
      intro problem member
      obtain ⟨entry, listed, member⟩ := List.mem_flatMap.mp member
      exact Problem.avoid_map_under (fun same => others entry listed (Step.index.inj same)) _ problem member
    apply Problem.avoid_append.mpr
    refine ⟨Problem.avoid_append.mpr ⟨avoid_lengthProblems, apart _ ?_⟩, apart _ ?_⟩
    · intro entry listed
      have below := (List.mem_zipIdx listed).2.1
      omega
    · intro entry listed
      have above := (List.mem_zipIdx listed).1
      omega
  · intro change
    have changed : ((Json.arr elements).adjustChild (.index position) change).items =
        elements.take position ++ change elements[position] :: elements.drop (position + 1) :=
      List.modify_eq_take_cons_drop inside
    have length : ((Json.arr elements).adjustChild (.index position) change).items.length = elements.length :=
      Json.length_items_adjustChild (.arr elements) (.index position) change
    rw [heldProblems_array, length, changed, List.zipIdx_append, List.zipIdx_cons, place, Nat.zero_add,
      List.flatMap_append, List.flatMap_cons, ← List.append_assoc, ← List.append_assoc]

variable (schema) in
/-- Under a body, the problems of a part stand between others, on which a change of the part has no effect. -/
theorem heldProblems_adjustChild {rule next : Node} {value part : Json} {step : Step} (fields : rule.WellFormed)
    (wellFormed : value.WellFormed) (fits : Fits rule value step) (entered : below? rule step = some next)
    (found : value.child? step = some part) :
    ∃ before after, Problem.Avoid step (before ++ after) ∧ ∀ change : Json → Json,
      schema.heldProblems (value.adjustChild step change) rule =
        before ++ (schema.problems (change part) next).map (.under step) ++ after := by
  cases fits with
  | @field header properties members key => exact heldProblems_field (fields header properties .here) entered found
  | @entry header element members key =>
    cases entered
    exact heldProblems_entry wellFormed.distinct found
  | @element header element minItems maxItems elements position =>
    cases entered
    exact heldProblems_element found

/-- A path that follows the document: every step fits, and leads to a declared node and to a part that is there. -/
inductive Follows (schema : Schema) : Node → Json → Path → Node → Json → Prop where
  | here {node : Node} {value : Json} : Follows schema node value [] node value
  | step {node rule next target : Node} {value part last : Json} {step : Step} {rest : Path}
      (governs : schema.governor? node value = some rule) (fits : Fits rule value step)
      (entered : below? rule step = some next) (found : value.child? step = some part)
      (further : Follows schema next part rest target last) : Follows schema node value (step :: rest) target last

variable {node target : Node} {value last : Json} {path : Path}

theorem PlainVariants.problems_of_governor? (plain : schema.PlainVariants) {rule : Node}
    (governs : schema.governor? node value = some rule) : schema.problems value node = schema.heldProblems value rule :=
  problems_of_ruling schema (plain.ruling_eq_ok_iff.mpr governs)

theorem Follows.at? (follows : schema.Follows node value path target last) : value.at? path = some last := by
  induction follows with
  | here => rfl
  | step governs fits entered found further ih => rw [Json.at?, found, Option.bind_some, ih]

/-- Navigation goes where the path follows the document. -/
theorem Follows.descend_eq_ok (plain : schema.PlainVariants) (follows : schema.Follows node value path target last) :
    schema.descend node (some value) path = .ok target := by
  induction follows with
  | here => rfl
  | @step _ _ next _ _ _ _ _ _ governs fits entered found further ih =>
    apply descend_cons_eq_ok_iff.mpr
    refine ⟨next, ?_, ?_⟩
    · rw [governing_of_governor? governs, enter?_of_plain (plain.governor?_plain governs)]
      exact entered
    · rw [Option.bind_some, found]
      exact ih

/-- No step of the path enters the tag that a governing node goes by, since the field of a tag has nothing below it. -/
theorem Sealed.ne_of_follows {rule next : Node} {property tag : String} {step : Step} {part : Json}
    (held : Sealed rule property tag) (entered : below? rule step = some next)
    (further : schema.Follows next part path target last) (apart : ∀ tag, target ≠ Node.tagField tag) :
    property ≠ step.text := by
  intro same
  subst same
  obtain ⟨header, properties, rfl, pin⟩ := held.pinned
  cases entered.symm.trans pin
  cases further with
  | here => exact apart tag rfl
  | step governs fits =>
    cases governs
    cases fits

/-- The problems of a document in which the part at a path is changed are those of the part, between others on which the
change has no effect. -/
theorem Follows.problems_changeAt (sealed : schema.SealedVariants) (follows : schema.Follows node value path target last)
    (fields : node.WellFormed) (wellFormed : value.WellFormed) (apart : ∀ tag, target ≠ Node.tagField tag) :
    ∃ before after : List Problem, (∀ problem ∈ before ++ after, ¬ path <+: problem.path) ∧ ∀ change : Json → Json,
      schema.problems (value.changeAt path change) node =
        before ++ (schema.problems (change last) target).map (.underPath path) ++ after := by
  induction follows with
  | @here node value =>
    refine ⟨[], [], nofun, ?_⟩
    intro change
    rw [List.nil_append, List.append_nil]
    exact (List.map_id _).symm
  | @step node rule next target value part last step rest governs fits entered found further ih =>
    have ruleFields := wellFormed_of_governor? fields sealed.wellFormed governs
    obtain ⟨before, after, avoid, held⟩ := schema.heldProblems_adjustChild ruleFields wellFormed fits entered found
    obtain ⟨first, second, outside, deeper⟩ :=
      ih (ruleFields.of_within (within_of_below? entered)) (wellFormed.child found) apart
    refine ⟨before ++ first.map (.under step), second.map (.under step) ++ after, ?_, ?_⟩
    · have around : ∀ problem ∈ before ++ after, ¬ step :: rest <+: problem.path := by
        intro problem member inside
        obtain ⟨others, same⟩ := inside
        exact avoid problem member (same ▸ rfl)
      have within : ∀ problem ∈ (first ++ second).map (Problem.under step), ¬ step :: rest <+: problem.path := by
        intro problem member inside
        obtain ⟨deeper, listed, rfl⟩ := List.mem_map.mp member
        exact outside deeper listed (List.cons_prefix_cons.mp inside).2
      simp only [List.mem_append, List.map_append] at around within ⊢
      grind
    · intro change
      -- What is changed lies below the step, and the step is not the tag, so the same node governs.
      have still : schema.governor? node (value.changeAt (step :: rest) change) = some rule := by
        apply sealed.governor?_of_kept governs
        intro property tag held
        exact (value.member?_adjustChild step _ property).trans (if_neg (held.ne_of_follows entered further apart))
      have shifted : (Problem.under step) ∘ (Problem.underPath rest) = Problem.underPath (step :: rest) := rfl
      rw [sealed.plain.problems_of_governor? still, Json.changeAt, held, deeper]
      simp only [List.map_append, List.map_map, List.append_assoc, shifted]

end Schema

end SchemaGuide
