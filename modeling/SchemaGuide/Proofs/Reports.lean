import Mathlib.Data.List.Nodup
import SchemaGuide.Proofs.Origins

/-! What may be said of all problems of a document together. Each of them stands at a value that is there, none is said
twice, and an object says once what it lacks. -/

namespace SchemaGuide

theorem Json.tag?_eq_none_iff {value : Json} {property : String} : value.tag? property = none ↔
    value.member? property = none ∨ ∃ raw, value.member? property = some raw ∧ raw.isTruthy = false := by
  unfold tag?
  cases value.member? property with
  | none => simp
  | some raw =>
    cases given : raw.isTruthy with
    | false => simp [asTag?, given]
    | true => cases raw <;> simp [asTag?, given]

namespace Problem

/-- Where a problem is, and of which category. -/
def place (problem : Problem) : Path × Category := (problem.path, problem.category)

/-- No two of the problems have the same place. -/
def Unrepeated (problems : List Problem) : Prop := (problems.map place).Nodup

theorem Unrepeated.append {first second : List Problem} (one : Unrepeated first) (two : Unrepeated second)
    (apart : ∀ problem ∈ first, ∀ other ∈ second, problem.place ≠ other.place) : Unrepeated (first ++ second) := by
  unfold Unrepeated
  rw [List.map_append, List.nodup_append]
  refine ⟨one, two, ?_⟩
  intro here listed there other
  obtain ⟨problem, member, rfl⟩ := List.mem_map.mp listed
  obtain ⟨another, present, rfl⟩ := List.mem_map.mp other
  exact apart problem member another present

theorem Unrepeated.under {problems : List Problem} (unrepeated : Unrepeated problems) (step : Step) :
    Unrepeated (problems.map (.under step)) := by
  have moved : place ∘ Problem.under step = (fun spot : Path × Category => (step :: spot.1, spot.2)) ∘ place := rfl
  unfold Unrepeated
  rw [List.map_map, moved, ← List.map_map]
  refine List.Nodup.map ?_ unrepeated
  intro one other same
  obtain ⟨path, category⟩ := Prod.mk.inj same
  exact Prod.ext (List.cons.inj path).2 category

/-- Problems under different steps are different. -/
theorem unrepeated_flatMap_under {α : Type} {list : List α} {step : α → Step} {below : α → List Problem}
    (distinct : (list.map step).Nodup) (each : ∀ entry ∈ list, Unrepeated (below entry)) :
    Unrepeated (list.flatMap fun entry => (below entry).map (.under (step entry))) := by
  induction list with
  | nil => exact List.nodup_nil
  | cons entry rest ih =>
    obtain ⟨fresh, distinct⟩ := List.nodup_cons.mp distinct
    rw [List.flatMap_cons]
    refine ((each entry List.mem_cons_self).under _).append (ih distinct fun other listed => each other (.tail _ listed)) ?_
    intro problem member other listed same
    obtain ⟨deeper, _, rfl⟩ := List.mem_map.mp member
    obtain ⟨another, present, inside⟩ := List.mem_flatMap.mp listed
    obtain ⟨deepest, _, rfl⟩ := List.mem_map.mp inside
    have shared : step entry = step another := (List.cons.inj (congrArg Prod.fst same)).1
    exact fresh (shared ▸ List.mem_map_of_mem present)

/-- Of problems that are not repeated, each is alone at its place. -/
theorem Unrepeated.filter_place {problems : List Problem} {problem : Problem} (unrepeated : Unrepeated problems)
    (member : problem ∈ problems) : problems.filter (·.place = problem.place) = [problem] := by
  obtain ⟨before, after, rfl⟩ := List.append_of_mem member
  unfold Unrepeated at unrepeated
  rw [List.map_append, List.map_cons, List.nodup_middle, List.nodup_cons, ← List.map_append] at unrepeated
  have others : ∀ other ∈ before ++ after, other.place ≠ problem.place := by
    intro other listed same
    exact unrepeated.1 (same ▸ List.mem_map_of_mem listed)
  have none {list : List Problem} (apart : ∀ other ∈ list, other.place ≠ problem.place) :
      list.filter (·.place = problem.place) = [] := by
    simpa [List.filter_eq_nil_iff] using apart
  obtain ⟨earlier, later⟩ := List.forall_mem_append.mp others
  rw [List.filter_append, List.filter_cons, none earlier, none later]
  simp

end Problem

theorem unrepeated_lengthProblems (length : Nat) (minItems maxItems : Option Int) :
    Problem.Unrepeated (lengthProblems length minItems maxItems) := by
  unfold lengthProblems
  cases maxItems.filter (0 ≤ ·) <;> cases minItems.filter (0 ≤ ·) <;> dsimp only <;> repeat' split
  all_goals simp [Problem.Unrepeated, Problem.place, Problem.here, Problem.category, Cause.category]

namespace Scalar

theorem unrepeated_rangeProblems (minimum maximum : Option Float) (x : Float) :
    Problem.Unrepeated (rangeProblems minimum maximum x) := by
  unfold rangeProblems
  cases minimum.filter (· != 0.0) <;> cases maximum.filter (· != 0.0) <;> dsimp only <;> repeat' split
  all_goals simp [Problem.Unrepeated, Problem.place, Problem.here, Problem.category, Cause.category]

theorem unrepeated_problems (form : Scalar) (required : Bool) (value : Json) :
    Problem.Unrepeated (form.problems required value) := by
  unfold problems
  split
  · split <;> simp [Problem.Unrepeated]
  · cases form with
    | string allowed literal =>
      unfold shapeProblems
      cases value.string? <;> dsimp only <;> split
      all_goals simp [Problem.Unrepeated, Problem.place, Problem.here, Problem.category, Cause.category]
    | number minimum maximum literal =>
      unfold shapeProblems
      cases value.asNumber? with
      | none => exact List.nodup_singleton _
      | some x => exact unrepeated_rangeProblems minimum maximum x
    | boolean literal =>
      dsimp only [shapeProblems]
      split <;> simp [Problem.Unrepeated]
    | unspecified literal => exact List.nodup_nil

end Scalar

namespace Schema

variable {schema : Schema} {node rule target : Node} {value last : Json} {path : Path} {problem : Problem}

private theorem nodup_keySteps {α : Type} {table : Entries α} (distinct : table.Distinct) :
    (table.map fun entry => Step.key entry.1).Nodup := by
  have keys : table.map (fun entry => Step.key entry.1) = (Entries.keys table).map .key := by simp [Entries.keys]
  rw [keys]
  exact distinct.map fun _ _ => Step.key.inj

private theorem nodup_indexSteps (elements : List Json) : (elements.zipIdx.map fun entry => Step.index entry.2).Nodup := by
  have positions : elements.zipIdx.map (fun entry => Step.index entry.2) = (elements.zipIdx.map Prod.snd).map .index :=
    List.map_map.symm
  rw [positions, List.zipIdx_map_snd]
  exact List.Nodup.map (fun _ _ => Step.index.inj) List.nodup_range'

theorem unrepeated_unknownProblems (distinct : Entries.Distinct value.entries) (properties : Entries Node) :
    Problem.Unrepeated (unknownProblems value properties) := by
  unfold Problem.Unrepeated unknownProblems
  rw [List.map_map]
  refine List.Nodup.map ?_ (distinct.filter _)
  intro one other same
  injection same with path
  injection path with step
  injection step

theorem unrepeated_declaredProblems {properties : Entries Node} (distinct : Entries.Distinct properties)
    (parts : ∀ entry ∈ properties, ∀ part, value.member? entry.1 = some part → Problem.Unrepeated (schema.problems part entry.2)) :
    Problem.Unrepeated (schema.declaredProblems value properties) := by
  have branches : schema.declaredProblems value properties = properties.flatMap fun entry =>
      ((value.member? entry.1).elim [] (schema.problems · entry.2)).map (.under (.key entry.1)) := by
    unfold declaredProblems
    congr 1
    funext entry
    cases value.member? entry.1 <;> rfl
  rw [branches]
  apply Problem.unrepeated_flatMap_under (nodup_keySteps distinct)
  intro entry declared
  cases found : value.member? entry.1 with
  | none => exact List.nodup_nil
  | some part => exact parts entry declared part found

theorem unrepeated_heldProblems (fields : rule.WellFormed) (wellFormed : value.WellFormed)
    (entries : ∀ entry ∈ value.entries, ∀ next : Node, next.WellFormed → Problem.Unrepeated (schema.problems entry.2 next))
    (items : ∀ item ∈ value.items, ∀ next : Node, next.WellFormed → Problem.Unrepeated (schema.problems item next)) :
    Problem.Unrepeated (schema.heldProblems value rule) := by
  cases rule with
  | object header properties =>
    obtain ⟨distinct, below⟩ := Node.wellFormed_object.mp fields
    rw [heldProblems_object]
    refine ((unrepeated_declaredProblems distinct ?_).append (unrepeated_unknownProblems wellFormed.distinct _) ?_).append ?_ ?_
    · intro entry declared part found
      exact entries _ (Json.mem_entries_of_member? found) _ (below entry declared)
    · intro problem member other listed same
      obtain ⟨key, _, undeclared, rfl⟩ := mem_unknownProblems.mp listed
      have path : problem.path = [.key key] := congrArg Prod.fst same
      exact avoid_declaredProblems undeclared problem member (by rw [path]; rfl)
    · unfold missingProblems
      split <;> simp [Problem.Unrepeated]
    · intro problem member other listed same
      obtain ⟨_, rfl⟩ := mem_missingProblems.mp listed
      have root : problem.path = [] := congrArg Prod.fst same
      rcases List.mem_append.mp member with declared | unknown
      · obtain ⟨_, _, _, _, _, _, rfl⟩ := mem_declaredProblems.mp declared
        cases root
      · obtain ⟨_, _, _, rfl⟩ := mem_unknownProblems.mp unknown
        cases root
  | array header element minItems maxItems =>
    rw [heldProblems_array]
    refine (unrepeated_lengthProblems _ minItems maxItems).append
      (Problem.unrepeated_flatMap_under (nodup_indexSteps _) ?_) ?_
    · intro entry listed
      exact items _ (List.fst_mem_of_mem_zipIdx listed) _ (Node.wellFormed_array.mp fields)
    · intro problem member other listed same
      obtain ⟨_, _, below⟩ := List.mem_flatMap.mp listed
      obtain ⟨_, _, rfl⟩ := List.mem_map.mp below
      obtain ⟨bound, rfl | rfl⟩ := mem_lengthProblems member <;> cases congrArg Prod.fst same
  | map header element =>
    rw [heldProblems_map]
    apply Problem.unrepeated_flatMap_under (nodup_keySteps wellFormed.distinct)
    intro entry listed
    exact entries entry listed _ (Node.wellFormed_map.mp fields)
  | scalar header form => exact form.unrepeated_problems header.required value

/-- Validation never reports the same twice of one place. -/
theorem unrepeated_problems (variants : schema.WellFormedVariants) (fields : node.WellFormed) (wellFormed : value.WellFormed) :
    Problem.Unrepeated (schema.problems value node) := by
  induction value using Json.induction_on_parts generalizing node with
  | step value entries items =>
    rw [problems_eq]
    split
    next cause lost => exact List.nodup_singleton _
    next rule ruled =>
      apply unrepeated_heldProblems (wellFormed_of_ruling fields variants ruled) wellFormed
      · intro entry member next nextFields
        exact entries entry member nextFields (wellFormed.entry member)
      · intro item member next nextFields
        exact items item member nextFields (wellFormed.item member)

section Places

variable {header : Header} {properties : Entries Node}

/-- A key that is not known is a key of its object. -/
theorem mem_keys_of_unknownKey {key : String} (ruled : schema.ruling value greatestHops node = .ok (.object header properties))
    (undeclared : properties.lookup key = none) (member : ⟨[.key key], .unknownKey key⟩ ∈ schema.problems value node) :
    key ∈ Entries.keys value.entries := by
  rw [problems_of_ruling schema ruled, heldProblems_object, List.mem_append, List.mem_append] at member
  rcases member with (declared | unknown) | missing
  · exact absurd rfl (avoid_declaredProblems (Entries.lookup_eq_none_iff.mp undeclared) _ declared)
  · obtain ⟨_, present, _, same⟩ := mem_unknownProblems.mp unknown
    cases same
    exact present
  · cases (mem_missingProblems.mp missing).2

/-- An object that lacks fields says so, and says nothing like it if it lacks none. -/
theorem missing_mem_problems_iff {names : List String} (ruled : schema.ruling value greatestHops node = .ok (.object header properties)) :
    .here (.missing names) ∈ schema.problems value node ↔ names ≠ [] ∧ names = lacking value properties := by
  rw [problems_of_ruling schema ruled, heldProblems_object, List.mem_append, List.mem_append, mem_missingProblems]
  constructor
  · rintro ((declared | unknown) | ⟨lacks, same⟩)
    · obtain ⟨_, _, _, _, _, _, same⟩ := mem_declaredProblems.mp declared
      cases same
    · obtain ⟨_, _, _, same⟩ := mem_unknownProblems.mp unknown
      cases same
    · cases same
      exact ⟨lacks, rfl⟩
  · rintro ⟨lacks, rfl⟩
    exact .inr ⟨lacks, rfl⟩

/-- A problem stands at a value of the document; one of a key that is not known, at the value under this key. -/
theorem at?_of_mem_problems (variants : schema.WellFormedVariants) (fields : node.WellFormed) (wellFormed : value.WellFormed)
    (member : problem ∈ schema.problems value node) : (value.at? problem.path).isSome ∧
      ∀ key, problem.cause = .unknownKey key → problem.path.getLast? = some (.key key) := by
  obtain ⟨path, target, part, own, visits, fault, reported, rfl⟩ :=
    exists_visits_of_mem_problems fields variants wellFormed member
  rcases fault.cases_unknown with ⟨root, known⟩ | ⟨key, header, properties, ruled, undeclared, rfl⟩
  · rw [Problem.path_underPath root, visits.at?]
    exact ⟨rfl, fun key same => absurd (Problem.category_eq_unknownKey_iff.mpr ⟨key, same⟩) known⟩
  · have listed := mem_keys_of_unknownKey ruled undeclared reported
    obtain ⟨unknown, found⟩ := Option.isSome_iff_exists.mp (Entries.lookup_isSome_iff.mpr listed)
    have child : part.child? (.key key) = some unknown := Json.child?_of_member? ((Json.member?_eq_lookup part key).trans found)
    constructor
    · rw [Problem.underPath, Json.at?_append, visits.at?, Option.bind_some, Json.at?, child]
      rfl
    · rintro other ⟨⟩
      exact List.getLast?_concat ..

/-- Missing names are those of absent fields, all of them, or the one of a tag that is absent or does not count as given. -/
theorem missing_of_mem_problems (variants : schema.WellFormedVariants) (fields : node.WellFormed) (wellFormed : value.WellFormed)
    (member : problem ∈ schema.problems value node) {names : List String} (same : problem.cause = .missing names) :
    names ≠ [] ∧ names.Nodup ∧ ∃ target part, schema.Visits node value problem.path target part ∧
      ((∀ name ∈ names, part.member? name = none) ∨ ∃ name raw, names = [name] ∧
        schema.ruling part greatestHops target = .error (.missing [name]) ∧ part.member? name = some raw ∧
        raw.isTruthy = false) := by
  obtain ⟨path, target, part, own, visits, fault, reported, rfl⟩ :=
    exists_visits_of_mem_problems fields variants wellFormed member
  obtain ⟨root, origin⟩ := fault.missing_cases same
  rw [Problem.path_underPath root]
  rcases origin with lost | ⟨header, properties, ruled, rfl⟩
  · obtain ⟨name, single, untagged⟩ : ∃ name, names = [name] ∧ part.tag? name = none := by
      rcases ruling_error_cases lost with ⟨name, single, untagged⟩ | ⟨_, _, other⟩
      · exact ⟨name, Cause.missing.inj single, untagged⟩
      · cases other
    subst single
    refine ⟨List.cons_ne_nil name [], List.nodup_singleton name, target, part, visits, ?_⟩
    rcases Json.tag?_eq_none_iff.mp untagged with absent | ⟨raw, present, blank⟩
    · exact .inl (List.forall_mem_singleton.mpr absent)
    · exact .inr ⟨name, raw, rfl, lost, present, blank⟩
  · have distinct := (Node.wellFormed_object.mp (wellFormed_of_ruling (visits.wellFormed variants fields) variants ruled)).1
    have lacks : lacking part properties ≠ [] := by
      have complete : own = .here (.missing (lacking part properties)) := by
        obtain ⟨rest, cause⟩ := own
        cases root
        cases same
        rfl
      rw [complete] at reported
      exact ((missing_mem_problems_iff ruled).mp reported).1
    refine ⟨lacks, nodup_lacking distinct, target, part, visits, .inl ?_⟩
    intro name listed
    obtain ⟨_, _, _, absent⟩ := mem_lacking.mp listed
    exact absent

/-- Whatever an object lacks, it is reported once, with all names at the place of the object. -/
theorem Visits.filter_missing (visits : schema.Visits node value path target last)
    (unrepeated : Problem.Unrepeated (schema.problems value node))
    (ruled : schema.ruling last greatestHops target = .ok (.object header properties)) (lacks : lacking last properties ≠ []) :
    (schema.problems value node).filter (·.place = (path, .requiredField)) = [⟨path, .missing (lacking last properties)⟩] := by
  have own := visits.mem_problems ((missing_mem_problems_iff ruled).mpr ⟨lacks, rfl⟩)
  rw [Problem.underPath_here] at own
  exact unrepeated.filter_place own

end Places

/-- Every problem of a document is reported once and where it is. No two have the same path and category; each has the path
of a value in the document, which ends in the key where a key is not known. Names that are missing are different from one
another and absent from that value, but for the one name of a tag, under which stands a value that does not count as given.
So there is one problem of missing names at an object that lacks fields, however many. -/
theorem problems_once_in_place {definitions : Entries Node} {document : Json} (built : schema = build definitions)
    (declared : ∀ entry ∈ definitions, entry.2.WellFormed) (fields : node.WellFormed) (wellFormed : document.WellFormed) :
    Problem.Unrepeated (schema.problems document node) ∧
    (∀ problem ∈ schema.problems document node, (document.at? problem.path).isSome) ∧
    (∀ path key, ⟨path, .unknownKey key⟩ ∈ schema.problems document node → path.getLast? = some (.key key)) ∧
    (∀ path names, ⟨path, .missing names⟩ ∈ schema.problems document node → names ≠ [] ∧ names.Nodup ∧
      ∃ target value, schema.Visits node document path target value ∧ document.at? path = some value ∧
        ((∀ name ∈ names, value.member? name = none) ∨ ∃ name raw, names = [name] ∧
          schema.ruling value greatestHops target = .error (.missing [name]) ∧ value.member? name = some raw ∧
          raw.isTruthy = false)) ∧
    ∀ path target value header properties, schema.Visits node document path target value →
      schema.ruling value greatestHops target = .ok (.object header properties) → lacking value properties ≠ [] →
      (schema.problems document node).filter (·.place = (path, .requiredField)) =
        [⟨path, .missing (lacking value properties)⟩] := by
  have variants : schema.WellFormedVariants := built ▸ wellFormedVariants_build declared
  have unrepeated := unrepeated_problems variants fields wellFormed
  refine ⟨unrepeated, ?_, ?_, ?_, ?_⟩
  · intro problem member
    exact (at?_of_mem_problems variants fields wellFormed member).1
  · intro path key member
    exact (at?_of_mem_problems variants fields wellFormed member).2 key rfl
  · intro path names member
    obtain ⟨some, distinct, target, value, visits, absent⟩ := missing_of_mem_problems variants fields wellFormed member rfl
    exact ⟨some, distinct, target, value, visits, visits.at?, absent⟩
  · intro path target value header properties visits ruled lacks
    exact visits.filter_missing unrepeated ruled lacks

/-- A stall on which a leaf is to be sold under a label and for a price. -/
def stall : Node :=
  .object {} [("label", .scalar { required := true } Node.anyString), ("leaf", branch),
    ("price", .scalar { required := true } (.number none none none))]

/-- A leaf without a kind, and neither a label nor a price. -/
def emptyStall : Json := .obj [("leaf", .obj [("kind", .str "")]), ("colour", .null)]

theorem problems_once_in_place_emptyStall :
    Problem.Unrepeated ((build sharedLeaf).problems emptyStall stall) ∧
    (∃ target value, (build sharedLeaf).Visits stall emptyStall [.key "leaf"] target value ∧
      emptyStall.at? [.key "leaf"] = some value ∧ value.member? "kind" = some (.str "")) ∧
    [Step.key "colour"].getLast? = some (.key "colour") ∧
    ((build sharedLeaf).problems emptyStall stall).filter (·.place = ([], .requiredField)) =
      [⟨[], .missing ["label", "price"]⟩] := by
  have declared : ∀ entry ∈ sharedLeaf, entry.2.WellFormed := by simp [sharedLeaf, branch, Entries.Distinct, Entries.keys]
  have fields : stall.WellFormed := by simp [stall, branch, Entries.Distinct, Entries.keys]
  have wellFormed : emptyStall.WellFormed := by
    simp [emptyStall, Json.WellFormed, Json.MembersWellFormed, Entries.Distinct, Entries.keys]
  obtain ⟨unrepeated, _, keys, names, once⟩ := problems_once_in_place rfl declared fields wellFormed
  have untagged : ⟨[.key "leaf"], .missing ["kind"]⟩ ∈ (build sharedLeaf).problems emptyStall stall := by decide
  obtain ⟨_, _, target, value, visits, stands, _⟩ := names _ _ untagged
  refine ⟨unrepeated, ⟨target, value, visits, stands, ?_⟩, keys [.key "colour"] "colour" (by decide), ?_⟩
  · cases stands
    rfl
  · exact once [] stall emptyStall _ _ .here rfl (by decide)

end Schema

end SchemaGuide
