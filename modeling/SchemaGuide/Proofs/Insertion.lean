import SchemaGuide.Proofs.Offers
import SchemaGuide.Proofs.Surroundings

/-! Accepting an offer in an object. The field is declared, absent and not the tag that the object goes by, so the same
node stays in force there and all around; what changes is the problems below the new field and the list of what the
object lacks. -/

namespace SchemaGuide

namespace Json

/-- The object with one more member, at the end. -/
def appendMember (field : String) (part : Json) : Json → Json
  | .obj members => .obj (members ++ [(field, part)])
  | other => other

def insertAt (document : Json) (path : Path) (field : String) (part : Json) : Json :=
  document.changeAt path (appendMember field part)

/-- A new member is found under its key, and every other one as before. -/
theorem member?_append {members : Entries Json} {field : String} (absent : field ∉ Entries.keys members) (part : Json)
    (key : String) : (Json.obj (members ++ [(field, part)])).member? key =
      if key = field then some part else (Json.obj members).member? key := by
  have appended : (Json.obj (members ++ [(field, part)])).member? key =
      (members.lookup key).or (List.lookup key [(field, part)]) := List.lookup_append
  rw [appended]
  split
  next same =>
    rw [same, Entries.lookup_eq_none_iff.mpr absent]
    simp
  next different =>
    rw [List.lookup_cons, beq_false_of_ne different, List.lookup_nil, Option.or_none]
    rfl

end Json

namespace Problem

/-- The object at the path lacks fields. -/
def lacksAt (path : Path) (problem : Problem) : Bool := problem.path = path && problem.category = .requiredField

/-- Neither the part under a field of the object at the path is concerned, nor what this object lacks. -/
def elsewhere (path : Path) (field : String) (problem : Problem) : Bool :=
  !(path ++ [Step.key field]).isPrefixOf problem.path && !problem.lacksAt path

variable {path : Path} {field : String} {problems : List Problem}

private theorem lacksAt_underPath (problem : Problem) : (problem.underPath path).lacksAt path = problem.lacksAt [] :=
  congrArg (· && decide (problem.category = .requiredField)) (decide_eq_decide.mpr List.append_right_eq_self)

private theorem elsewhere_underPath (problem : Problem) :
    (problem.underPath path).elsewhere path field = problem.elsewhere [] field := by
  have same : (path ++ [Step.key field]).isPrefixOf (path ++ problem.path) = [Step.key field].isPrefixOf problem.path := by
    rw [Bool.eq_iff_iff, List.isPrefixOf_iff_prefix, List.isPrefixOf_iff_prefix, List.prefix_append_right_inj]
  rw [elsewhere, lacksAt_underPath]
  exact congrArg (!· && !problem.lacksAt []) same

theorem filter_lacksAt_underPath : (problems.map (underPath path)).filter (lacksAt path) =
    (problems.filter (lacksAt [])).map (underPath path) := by
  rw [List.filter_map]
  exact congrArg (List.map _) (List.filter_congr fun problem _ => lacksAt_underPath problem)

theorem filter_elsewhere_underPath : (problems.map (underPath path)).filter (elsewhere path field) =
    (problems.filter (elsewhere [] field)).map (underPath path) := by
  rw [List.filter_map]
  exact congrArg (List.map _) (List.filter_congr fun problem _ => elsewhere_underPath problem)

theorem filter_lacksAt_of_ne (others : ∀ problem ∈ problems, problem.path ≠ path) : problems.filter (lacksAt path) = [] := by
  apply List.filter_eq_nil_iff.mpr
  intro problem member
  simp [lacksAt, others problem member]

theorem filter_elsewhere_under : (problems.map (under (.key field))).filter (elsewhere [] field) = [] := by
  apply List.filter_eq_nil_iff.mpr
  intro problem member
  obtain ⟨deeper, _, rfl⟩ := List.mem_map.mp member
  simp [elsewhere, under]

theorem filter_lacksAt_missing (fields : List String) :
    (Schema.missingProblems fields).filter (lacksAt []) = Schema.missingProblems fields := by
  apply List.filter_eq_self.mpr
  intro problem member
  rw [(Schema.mem_missingProblems.mp member).2]
  rfl

theorem filter_elsewhere_missing (fields : List String) :
    (Schema.missingProblems fields).filter (elsewhere [] field) = [] := by
  apply List.filter_eq_nil_iff.mpr
  intro problem member
  rw [(Schema.mem_missingProblems.mp member).2]
  simp [elsewhere, lacksAt, here, category, Cause.category]

/-- What a field that is added to the object at a path may change: problems below it come, and it is no longer among
the fields that the object lacks. -/
structure FieldAdded (path : Path) (field : String) (old new : List Problem) : Prop where
  others : new.filter (elsewhere path field) = old.filter (elsewhere path field)
  missing : ∃ lost, old.filter (lacksAt path) = (Schema.missingProblems lost).map (underPath path) ∧
    new.filter (lacksAt path) = (Schema.missingProblems (lost.filter (· ≠ field))).map (underPath path)
  known : ∀ key, ⟨path ++ [.key field], .unknownKey key⟩ ∉ new

theorem FieldAdded.around {before after old new : List Problem} (added : FieldAdded [] field old new)
    (outside : ∀ problem ∈ before ++ after, ¬ path <+: problem.path) :
    FieldAdded path field (before ++ old.map (underPath path) ++ after) (before ++ new.map (underPath path) ++ after) := by
  have outer : ∀ problem ∈ before ++ after, problem.path ≠ path := by
    intro problem member same
    exact outside problem member (same ▸ List.prefix_rfl)
  obtain ⟨left, right⟩ := List.forall_mem_append.mp outer
  have lacks (inner : List Problem) : (before ++ inner.map (underPath path) ++ after).filter (lacksAt path) =
      (inner.filter (lacksAt [])).map (underPath path) := by
    simp only [List.filter_append, filter_lacksAt_underPath, filter_lacksAt_of_ne left, filter_lacksAt_of_ne right,
      List.nil_append, List.append_nil]
  have root : underPath [] = id := rfl
  obtain ⟨lost, had, has⟩ := added.missing
  refine ⟨?_, ⟨lost, ?_, ?_⟩, ?_⟩
  · simp only [List.filter_append, filter_elsewhere_underPath, added.others]
  · rw [lacks, had, root, List.map_id]
  · rw [lacks, has, root, List.map_id]
  · intro key member
    rcases List.mem_append.mp member with member | member
    · rcases List.mem_append.mp member with member | member
      · exact outside _ (List.mem_append_left after member) (List.prefix_append path _)
      · obtain ⟨problem, member, same⟩ := List.mem_map.mp member
        have place : problem.path = [.key field] := List.append_cancel_left (congrArg Problem.path same)
        have cause : problem.cause = .unknownKey key := congrArg Problem.cause same
        exact added.known key (by rw [List.nil_append, ← place, ← cause]; exact member)
    · exact outside _ (List.mem_append_right before member) (List.prefix_append path _)

end Problem

namespace Schema

variable {schema : Schema}

private theorem lacking_append {members : Entries Json} {field : String} (absent : field ∉ Entries.keys members) (part : Json)
    (properties : Entries Node) : lacking (.obj (members ++ [(field, part)])) properties =
      (lacking (.obj members) properties).filter (· ≠ field) := by
  unfold lacking
  rw [List.filter_map, List.filter_filter]
  refine congrArg (List.map Prod.fst) (List.filter_congr fun entry _ => ?_)
  rw [Json.member?_append absent]
  by_cases same : entry.1 = field <;> simp [same]

private theorem unknownProblems_append {members : Entries Json} {properties : Entries Node} {field : String}
    (declared : field ∈ Entries.keys properties) (part : Json) :
    unknownProblems (.obj (members ++ [(field, part)])) properties = unknownProblems (.obj members) properties := by
  have keys : Entries.keys (Json.obj (members ++ [(field, part)])).entries =
      Entries.keys (Json.obj members).entries ++ [field] := List.map_append
  rw [unknownProblems, keys, List.filter_append]
  simp [unknownProblems, declared]

private theorem unknownKey_notMem {header : Header} {properties : Entries Node} {value : Json} {field : String}
    (declared : field ∈ Entries.keys properties) (key : String) :
    ⟨[.key field], .unknownKey key⟩ ∉ schema.heldProblems value (.object header properties) := by
  intro member
  rw [heldProblems_object, List.mem_append, List.mem_append] at member
  obtain (member | member) | member := member
  · -- Below the key, an unknown key would have to be the fault of the whole value there, which it never is.
    obtain ⟨entry, _, part, _, deeper, member, same⟩ := mem_declaredProblems.mp member
    have root : deeper.path = [] := (List.cons.inj (congrArg Problem.path same)).2.symm
    exact cause_ne_unknownKey_of_root member root key (congrArg Problem.cause same).symm
  · obtain ⟨other, _, unknown, same⟩ := mem_unknownProblems.mp member
    cases same
    exact unknown declared
  · cases (mem_missingProblems.mp member).2

private theorem filter_lacksAt_heldProblems (value : Json) (header : Header) (properties : Entries Node) :
    (schema.heldProblems value (.object header properties)).filter (Problem.lacksAt []) =
      missingProblems (lacking value properties) := by
  have declared : ∀ problem ∈ schema.declaredProblems value properties, problem.path ≠ [] := by
    intro problem member
    obtain ⟨_, _, _, _, _, _, rfl⟩ := mem_declaredProblems.mp member
    exact nofun
  have unknown : ∀ problem ∈ unknownProblems value properties, problem.path ≠ [] := by
    intro problem member
    obtain ⟨_, _, _, rfl⟩ := mem_unknownProblems.mp member
    exact nofun
  rw [heldProblems_object, List.filter_append, List.filter_append, Problem.filter_lacksAt_of_ne declared,
    Problem.filter_lacksAt_of_ne unknown, Problem.filter_lacksAt_missing, List.nil_append, List.nil_append]

theorem fieldAdded_append {header : Header} {properties : Entries Node} {members : Entries Json} {child : Node}
    {field : String} (distinct : Entries.Distinct properties) (declared : properties.lookup field = some child)
    (absent : field ∉ Entries.keys members) (part : Json) :
    Problem.FieldAdded [] field (schema.heldProblems (.obj members) (.object header properties))
      (schema.heldProblems (.obj (members ++ [(field, part)])) (.object header properties)) := by
  have listed : field ∈ Entries.keys properties := Entries.lookup_isSome_iff.mp (by rw [declared]; rfl)
  have nothing : (Json.obj members).member? field = none := Entries.lookup_eq_none_iff.mpr absent
  have apart {fields : Entries Node} (undeclared : field ∉ Entries.keys fields) :
      schema.declaredProblems (.obj (members ++ [(field, part)])) fields = schema.declaredProblems (.obj members) fields := by
    refine declaredProblems_congr fun other listed => (Json.member?_append absent part other).trans (if_neg ?_)
    intro same
    exact undeclared (same ▸ listed)
  obtain ⟨earlier, later, split, absentBefore, absentAfter⟩ := distinct.exists_split declared
  have old : schema.declaredProblems (.obj members) properties =
      schema.declaredProblems (.obj members) earlier ++ schema.declaredProblems (.obj members) later := by
    rw [split, declaredProblems_append, declaredProblems_cons_of_absent nothing]
  have new : schema.declaredProblems (.obj (members ++ [(field, part)])) properties =
      schema.declaredProblems (.obj members) earlier ++ (schema.problems part child).map (.under (.key field)) ++
        schema.declaredProblems (.obj members) later := by
    rw [split, declaredProblems_append, declaredProblems_cons ((Json.member?_append absent part field).trans (if_pos rfl)),
      apart absentBefore, apart absentAfter, List.append_assoc]
  have root : Problem.underPath [] = id := rfl
  refine ⟨?_, ⟨lacking (.obj members) properties, ?_, ?_⟩, unknownKey_notMem listed⟩
  · rw [heldProblems_object, heldProblems_object, old, new, unknownProblems_append listed]
    simp only [List.filter_append, Problem.filter_elsewhere_under, Problem.filter_elsewhere_missing, List.append_nil]
  · rw [filter_lacksAt_heldProblems, root, List.map_id]
  · rw [filter_lacksAt_heldProblems, lacking_append absent, root, List.map_id]

/-- A field of an object is added that the object declares, has not marked and does not have yet. -/
theorem fieldAdded_insertAt (sealed : schema.SealedVariants) {root node child : Node} {document : Json} {path : Path}
    {members : Entries Json} {header : Header} {properties : Entries Node} {field : String}
    (fields : root.WellFormed) (wellFormed : document.WellFormed)
    (follows : schema.Follows root document path node (.obj members))
    (governs : schema.governor? node (.obj members) = some (.object header properties))
    (declared : properties.lookup field = some child) (unmarked : (Node.object header properties).isReadOnly field = false)
    (absent : field ∉ Entries.keys members) (part : Json) :
    Problem.FieldAdded path field (schema.problems document root)
      (schema.problems (document.insertAt path field part) root) := by
  have untagged : ∀ tag, node ≠ Node.tagField tag := by
    intro tag same
    subst same
    cases governs
  have still : schema.governor? node (.obj (members ++ [(field, part)])) = some (.object header properties) := by
    -- The field is not the tag that the object goes by, for that one is marked.
    apply sealed.governor?_of_kept governs
    intro property tag held
    rw [Json.member?_append absent, if_neg]
    intro same
    subst same
    cases unmarked.symm.trans held.marked
  have nodeFields := wellFormed_of_descend sealed.wellFormed fields (follows.descend_eq_ok sealed.plain)
  have distinct := wellFormed_of_governor? nodeFields sealed.wellFormed governs header properties .here
  obtain ⟨before, after, outside, changed⟩ := follows.problems_changeAt sealed fields wellFormed untagged
  have old := changed id
  have unchanged : document.changeAt path id = document := Json.changeAt_eq_self fun _ _ => rfl
  rw [unchanged, id_eq, sealed.plain.problems_of_governor? governs] at old
  have new := changed (Json.appendMember field part)
  rw [Json.appendMember, sealed.plain.problems_of_governor? still] at new
  rw [Json.insertAt, old, new]
  exact (fieldAdded_append distinct declared absent part).around outside

end Schema

namespace Editor

/-- Whatever is offered at an object, accepting it adds a field that the object does not have yet and changes nothing
beyond that in the problems of the document. -/
theorem validate_insertAt_offer {editor : Editor} {definitions : Entries Node} {document : Json} {path : Path}
    {root node : Node} {members : Entries Json} {header : Header} {properties : Entries Node}
    (built : editor.schema = Schema.build definitions) (fields : ∀ entry ∈ definitions, entry.2.WellFormed)
    (targets : ObjectTargets definitions) (wellFormed : document.WellFormed)
    (known : editor.schema.definition? editor.root = some root)
    (follows : editor.schema.Follows root document path node (.obj members))
    (governs : editor.schema.governor? node (.obj members) = some (.object header properties)) :
    ∃ offers, editor.offers path document = .ok offers ∧ ∀ offer ∈ offers,
      offer.field ∉ Entries.keys members ∧
      Problem.FieldAdded path offer.field (editor.validate document)
        (editor.validate (document.insertAt path offer.field offer.value)) := by
  have sealed : editor.schema.SealedVariants := built ▸ Schema.sealedVariants_build fields targets
  have rootFields : root.WellFormed := Schema.wellFormed_of_definition? fields (built ▸ known)
  have reached : editor.schema.nodeAt editor.root path (some document) = .ok node :=
    Schema.nodeAt_eq_ok_iff.mpr ⟨root, known, follows.descend_eq_ok sealed.plain⟩
  have nodeFields := Schema.wellFormed_of_descend sealed.wellFormed rootFields (follows.descend_eq_ok sealed.plain)
  have ruleFields := Schema.wellFormed_of_governor? nodeFields sealed.wellFormed governs
  obtain ⟨offers, parent, made, origin, _⟩ := Schema.offers_of_nodeAt reached
  refine ⟨offers, made, ?_⟩
  intro offer member
  obtain ⟨offered, free⟩ := origin offer member
  rw [follows.at?] at offered free
  rw [Schema.nodeOffers_of_settled (Schema.settled_of_governor? governs), Schema.governing_of_governor? governs] at offered
  obtain ⟨child, listed, unmarked, offered⟩ := Schema.mem_bodyOffers_object.mp offered
  have absent : offer.field ∉ Entries.keys members := free (Schema.mem_fieldOffers offered).2.1
  have declared := (ruleFields header properties .here).lookup_of_mem listed
  have whole (value : Json) : editor.validate value = editor.schema.problems value root := by rw [validate, known]
  rw [whole, whole]
  exact ⟨absent, Schema.fieldAdded_insertAt sealed rootFields wellFormed follows governs declared unmarked absent offer.value⟩

def room : Node := .scalar { discriminator := some ⟨"kind", [("office", "#/definitions/office")]⟩ } Node.anyString

def house : Entries Node :=
  let text : Node := .scalar { required := true } Node.anyString
  [("house", .object {} [("rooms", .map {} room)]), ("office", .object {} [("desk", text), ("chair", text)])]

def plan : Json :=
  .obj [("rooms", .obj [("a", .obj [("kind", .str "office"), ("sofa", .null)])]), ("pool", .null)]

/-- The desk is no longer missing, but empty; the chair still is, and both unknown keys stay. -/
theorem validate_insertAt_offer_house :
    ∃ offers, (Editor.mk (Schema.build house) "house" standardSuffix).offers [.key "rooms", .key "a"] plan = .ok offers ∧
      offers.map Offer.field = ["desk", "chair"] ∧
      Problem.FieldAdded [.key "rooms", .key "a"] "desk"
        [⟨[.key "rooms", .key "a", .key "sofa"], .unknownKey "sofa"⟩,
          ⟨[.key "rooms", .key "a"], .missing ["desk", "chair"]⟩, ⟨[.key "pool"], .unknownKey "pool"⟩]
        [⟨[.key "rooms", .key "a", .key "desk"], .empty⟩, ⟨[.key "rooms", .key "a", .key "sofa"], .unknownKey "sofa"⟩,
          ⟨[.key "rooms", .key "a"], .missing ["chair"]⟩, ⟨[.key "pool"], .unknownKey "pool"⟩] := by
  have fields : ∀ entry ∈ house, entry.2.WellFormed := by simp [house, room, Entries.Distinct, Entries.keys]
  have wellFormed : plan.WellFormed := by
    simp [plan, Json.WellFormed, Json.MembersWellFormed, Entries.Distinct, Entries.keys]
  have known : (Editor.mk (Schema.build house) "house" standardSuffix).schema.definition? "house" =
      some (.object {} [("rooms", .map {} room)]) := rfl
  have follows : (Schema.build house).Follows (.object {} [("rooms", .map {} room)]) plan [.key "rooms", .key "a"] room
      (.obj [("kind", .str "office"), ("sofa", .null)]) :=
    .step rfl .field rfl rfl (.step rfl .entry rfl rfl .here)
  obtain ⟨offers, made, accepted⟩ := validate_insertAt_offer rfl fields (by decide) wellFormed known follows rfl
  cases made
  exact ⟨_, rfl, rfl, (accepted _ (.head _)).2⟩

end Editor

end SchemaGuide
