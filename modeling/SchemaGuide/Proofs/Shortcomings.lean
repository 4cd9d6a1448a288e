import SchemaGuide.Proofs.Origins
import SchemaGuide.Proofs.Templates

/-! What validation finds in a sample. Below nodes without discriminators a sample has the shape that its node asks for: the
declared keys, as many elements as the bounds allow for, values of the right kind. What is left are bounds that no sample
meets and the values that scalars are given. -/

namespace SchemaGuide

/-- Where the sample of a node falls short of this node, and why. -/
inductive Shortcoming : Node → Cause → Prop where
  | few {header : Header} {items : Node} {bound : Int} {maxItems : Option Int} (capped : greatestSampleCount < bound) :
      Shortcoming (.array header items (some bound) maxItems) (.tooFew bound)
  | many {header : Header} {items : Node} {least bound : Int} (binds : 0 ≤ bound)
      (narrow : bound < min least greatestSampleCount) :
      Shortcoming (.array header items (some least) (some bound)) (.tooMany bound)
  | blank {header : Header} {form : Scalar} (required : header.required = true) (empty : form.template.isEmpty = true) :
      Shortcoming (.scalar header form) .empty
  | text {header : Header} {allowed : List String} {literal : Option String} (given : literal.getD "" ≠ "")
      (listed : allowed ≠ []) (other : literal.getD "" ∉ allowed) :
      Shortcoming (.scalar header (.string allowed literal)) (.notAllowed allowed)
  | low {header : Header} {bound : Float} {maximum : Option Float} {literal : Option Number} (binds : bound != 0.0)
      (less : (literal.getD (.int 0)).toFloat < bound) :
      Shortcoming (.scalar header (.number (some bound) maximum literal)) (.below bound)
  | high {header : Header} {bound : Float} {minimum : Option Float} {literal : Option Number} (binds : bound != 0.0)
      (more : bound < (literal.getD (.int 0)).toFloat) :
      Shortcoming (.scalar header (.number minimum (some bound) literal)) (.above bound)

namespace Schema

variable {header : Header} {problem : Problem}

theorem mem_lengthProblems_sampleCount_iff {items : Node} {minItems maxItems : Option Int} :
    problem ∈ lengthProblems (sampleCount minItems) minItems maxItems ↔
      problem.path = [] ∧ Shortcoming (.array header items minItems maxItems) problem.cause := by
  have count (bound : Int) : sampleCount (some bound) = min bound.toNat greatestSampleCount := rfl
  rw [mem_lengthProblems_iff]
  constructor
  · rintro (⟨bound, rfl, binds, exceeded, rfl⟩ | ⟨bound, rfl, binds, unmet, rfl⟩)
    · cases minItems with
      | none => exact absurd exceeded (Int.not_lt.mpr binds)
      | some least =>
        rw [count] at exceeded
        exact ⟨rfl, .many binds (by omega)⟩
    · rw [count] at unmet
      exact ⟨rfl, .few (by omega)⟩
  · obtain ⟨path, cause⟩ := problem
    rintro ⟨root, short⟩
    cases root
    cases short with
    | @few _ _ bound _ capped =>
      refine .inr ⟨bound, rfl, by omega, ?_, rfl⟩
      rw [count]
      omega
    | @many _ _ least bound binds narrow =>
      refine .inl ⟨bound, rfl, binds, ?_, rfl⟩
      rw [count]
      omega

theorem mem_scalarProblems_template_iff {form : Scalar} : problem ∈ form.problems header.required form.template ↔
    problem.path = [] ∧ Shortcoming (.scalar header form) problem.cause := by
  constructor
  · intro member
    refine ⟨(Scalar.here_of_mem_problems member).1, ?_⟩
    unfold Scalar.problems at member
    split at member
    next empty =>
      split at member
      next required =>
        cases List.mem_singleton.mp member
        exact .blank required empty
      next => cases member
    next filled =>
      cases form with
      | string allowed literal =>
        have forbidden : allowed ≠ [] ∧ literal.getD "" ∉ allowed ∧ problem = .here (.notAllowed allowed) := by
          simpa [Scalar.shapeProblems, Scalar.template, Json.string?, and_assoc] using member
        obtain ⟨listed, other, rfl⟩ := forbidden
        exact .text (by simpa [Scalar.template, Json.isEmpty, Json.isTruthy] using filled) listed other
      | number minimum maximum literal =>
        rcases Scalar.mem_rangeProblems.mp member with ⟨bound, rfl, binds, less, rfl⟩ | ⟨bound, rfl, binds, more, rfl⟩
        · exact .low binds less
        · exact .high binds more
      | boolean literal => cases member
      | unspecified literal => cases member
  · obtain ⟨path, cause⟩ := problem
    rintro ⟨root, short⟩
    cases root
    cases short with
    | blank required empty =>
      rw [Scalar.problems, if_pos empty, if_pos required]
      exact List.mem_singleton_self _
    | text given listed other =>
      simp [Scalar.problems, Scalar.shapeProblems, Scalar.template, Json.isEmpty, Json.isTruthy, Json.string?, Problem.here,
        given, listed, other]
    | low binds less => exact Scalar.mem_rangeProblems.mpr (.inl ⟨_, rfl, binds, less, rfl⟩)
    | high binds more => exact Scalar.mem_rangeProblems.mpr (.inr ⟨_, rfl, binds, more, rfl⟩)

variable {schema : Schema} {node target : Node} {value last : Json} {path : Path}

variable (schema) in
/-- A shortcoming of a node is a problem of its sample. -/
theorem mem_problems_of_shortcoming {cause : Cause} (plain : node.discriminator? = none) (short : Shortcoming node cause) :
    .here cause ∈ schema.problems (schema.template node) node := by
  rw [problems_of_ruling schema (ruling_of_plain plain greatestHops)]
  cases node with
  | object | map => cases short
  | array header items minItems maxItems =>
    rw [heldProblems_array, template_array schema plain, Json.items, Json.elements?, Option.getD_some, List.length_replicate]
    exact List.mem_append_left _ (mem_lengthProblems_sampleCount_iff.mpr ⟨rfl, short⟩)
  | scalar header form =>
    have sample : schema.template (.scalar header form) = form.template := template_of_plain schema plain
    rw [sample]
    exact mem_scalarProblems_template_iff.mpr ⟨rfl, short⟩

/-- A problem of a sample is a shortcoming of the node, or a problem of the sample of a node below it. -/
theorem shortcoming_or_exists_of_mem_problems (fields : node.WellFormed) (plain : node.discriminator? = none)
    (member : problem ∈ schema.problems (schema.template node) node) :
    problem.path = [] ∧ Shortcoming node problem.cause ∨
      ∃ step next deeper, Fits node (schema.template node) step ∧ below? node step = some next ∧
        (schema.template node).child? step = some (schema.template next) ∧
        deeper ∈ schema.problems (schema.template next) next ∧ problem = deeper.under step := by
  rw [problems_of_ruling schema (ruling_of_plain plain greatestHops)] at member
  cases node with
  | object header properties =>
    rw [heldProblems_template_object schema plain] at member
    obtain ⟨entry, declared, part, found, deeper, below, rfl⟩ := mem_declaredProblems.mp member
    have entered : properties.lookup entry.1 = some entry.2 := (fields header properties .here).lookup_of_mem declared
    have sampled := found
    rw [member?_template_object schema plain, entered] at sampled
    cases sampled
    refine .inr ⟨.key entry.1, entry.2, deeper, ?_, entered, Json.child?_of_member? found, below, rfl⟩
    rw [template_object schema plain]
    exact .field
  | array header items minItems maxItems =>
    rw [heldProblems_array, template_array schema plain] at member
    rw [template_array schema plain]
    rcases List.mem_append.mp member with own | part
    · rw [Json.items, Json.elements?, Option.getD_some, List.length_replicate] at own
      exact .inl (mem_lengthProblems_sampleCount_iff.mp own)
    · obtain ⟨⟨item, position⟩, listed, member⟩ := List.mem_flatMap.mp part
      obtain ⟨deeper, below, rfl⟩ := List.mem_map.mp member
      have found : (List.replicate (sampleCount minItems) (schema.template items))[position]? = some item :=
        List.mem_zipIdx_iff_getElem?.mp listed
      cases List.eq_of_mem_replicate (List.mem_of_getElem? found)
      exact .inr ⟨.index position, items, deeper, .element, rfl, found, below, rfl⟩
  | map header values =>
    have empty : schema.template (.map header values) = .obj [] := template_of_plain schema plain
    rw [heldProblems_map, empty] at member
    cases member
  | scalar header form =>
    have sample : schema.template (.scalar header form) = form.template := template_of_plain schema plain
    rw [sample] at member
    exact .inl (mem_scalarProblems_template_iff.mp member)

/-- Without discriminators, validation visits nodes that are part of the first one. -/
theorem Visits.within_of_plain (visits : schema.Visits node value path target last) (plain : ∀ d, ¬ node.Carries d) :
    Node.Within target node := by
  induction visits with
  | here => exact .here
  | step ruled fits entered found further ih =>
    cases (ruling_of_plain (Node.discriminator?_of_not_carries plain) _).symm.trans ruled
    have inside := within_of_below? entered
    exact (ih fun d carried => plain d (carried.of_within inside)).trans inside

/-- Where no discriminator is below a node, its sample has no problems but the shortcomings of the nodes that validation
visits in it, and each of these finds the sample of its own. -/
theorem mem_problems_template_iff (schema : Schema) {node : Node} {problem : Problem} (fields : node.WellFormed)
    (plain : ∀ d, ¬ node.Carries d) : problem ∈ schema.problems (schema.template node) node ↔
      ∃ target, schema.Visits node (schema.template node) problem.path target (schema.template target) ∧
        Shortcoming target problem.cause := by
  obtain ⟨path, cause⟩ := problem
  constructor
  · intro member
    induction path generalizing node with
    | nil =>
      have own := Node.discriminator?_of_not_carries plain
      rcases shortcoming_or_exists_of_mem_problems fields own member with ⟨_, short⟩ | ⟨_, _, _, _, _, _, _, same⟩
      · exact ⟨node, .here, short⟩
      · cases same
    | cons step rest ih =>
      have own := Node.discriminator?_of_not_carries plain
      rcases shortcoming_or_exists_of_mem_problems fields own member with
        ⟨root, _⟩ | ⟨_, next, deeper, fits, entered, child, below, same⟩
      · cases root
      · cases same
        have inside := within_of_below? entered
        obtain ⟨target, visits, short⟩ :=
          ih (fields.of_within inside) (fun d carried => plain d (carried.of_within inside)) below
        exact ⟨target, .step (ruling_of_plain own _) fits entered child visits, short⟩
  · rintro ⟨target, visits, short⟩
    have inside := visits.within_of_plain plain
    have own := Node.discriminator?_of_not_carries fun d carried => plain d (carried.of_within inside)
    have reported := visits.mem_problems (mem_problems_of_shortcoming schema own short)
    rw [Problem.underPath_here] at reported
    exact reported

/-- A name that is required and left open, and rows that must have two columns but may have one only. -/
def sheet : Node :=
  .object {} [("name", .scalar { required := true } (.string ["a", "b"] none)),
    ("rows", .array {} (.array {} (.scalar {} (.number none none none)) (some 2) (some 1)) (some 3) (some (-1)))]

theorem mem_problems_template_iff_sheet :
    (⟨[.key "rows", .index 2], .tooMany 1⟩ : Problem) ∈ (build []).problems ((build []).template sheet) sheet ∧
    ∃ target, (build []).Visits sheet ((build []).template sheet) [.key "rows", .index 2] target ((build []).template target) ∧
      Shortcoming target (.tooMany 1) := by
  have fields : sheet.WellFormed := by simp [sheet, Entries.Distinct, Entries.keys]
  have plain : ∀ d, ¬ sheet.Carries d := fun d => Node.not_carries_of_occurrences (by decide)
  have member : (⟨[.key "rows", .index 2], .tooMany 1⟩ : Problem) ∈ (build []).problems ((build []).template sheet) sheet := by
    decide
  exact ⟨member, (mem_problems_template_iff (build []) fields plain).mp member⟩

end Schema

end SchemaGuide
