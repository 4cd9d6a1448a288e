import Mathlib.Data.List.Perm.Basic
import SchemaGuide.Proofs.Origins

/-! The order of the members of an object does not matter to validation. Two values that differ in nothing else carry the
same tags, so the same nodes rule them; the bodies then go through the same parts in another order. What an object lacks is
one problem with a list in it, and that list is the same, for it goes by the declared fields. -/

namespace SchemaGuide

namespace Json

/-- The second value is the first with the members of objects in another order, at any depth. -/
inductive Reordered : Json → Json → Prop where
  | same (value : Json) : Reordered value value
  | arr {elements others : List Json} (length : elements.length = others.length)
      (parts : ∀ (position : Nat) (part other : Json), elements[position]? = some part → others[position]? = some other →
        Reordered part other) : Reordered (.arr elements) (.arr others)
  | obj {members others : Entries Json} (keys : List.Perm (Entries.keys members) (Entries.keys others))
      (parts : ∀ entry ∈ members, ∀ other, others.lookup entry.1 = some other → Reordered entry.2 other) :
      Reordered (.obj members) (.obj others)

/-- The value is neither an object nor an array. -/
def Atomic : Json → Prop
  | .arr _ | .obj _ => False
  | _ => True

/-- No object in the value, at any depth, has an object or an array under the key. -/
def Flat (value : Json) (key : String) : Prop :=
  ∀ path inner part, value.at? path = some inner → inner.member? key = some part → part.Atomic

theorem Flat.child {value part : Json} {key : String} {step : Step} (flat : value.Flat key)
    (found : value.child? step = some part) : part.Flat key := by
  intro path inner last reached
  apply flat (step :: path) inner last
  rw [at?, found]
  exact reached

theorem flat_of_atomic {value : Json} (atomic : value.Atomic) (key : String) : value.Flat key := by
  intro path inner part reached found
  cases value with
  | arr | obj => cases atomic
  | null | bool | num | str =>
    cases path with
    | nil =>
      cases reached
      cases found
    | cons step rest => cases reached

theorem flat_obj {members : Entries Json} {key : String} (own : ∀ part, members.lookup key = some part → part.Atomic)
    (below : ∀ entry ∈ members, entry.2.Flat key) : (Json.obj members).Flat key := by
  intro path inner last reached found
  cases path with
  | nil =>
    cases reached
    exact own last found
  | cons step rest =>
    obtain ⟨part, entered, further⟩ := Option.bind_eq_some_iff.mp reached
    exact below _ (Entries.mem_of_lookup entered) rest inner last further found

theorem flat_obj_of_atomic {members : Entries Json} (atomic : ∀ entry ∈ members, entry.2.Atomic) (key : String) :
    (Json.obj members).Flat key := by
  apply flat_obj
  · intro part found
    exact atomic _ (Entries.mem_of_lookup found)
  · intro entry listed
    exact flat_of_atomic (atomic entry listed) key

namespace Reordered

variable {value other : Json}

theorem keys_perm (reordered : value.Reordered other) :
    List.Perm (Entries.keys value.entries) (Entries.keys other.entries) := by
  cases reordered with
  | same | arr => exact .refl _
  | obj keys parts => exact keys

theorem length_items (reordered : value.Reordered other) : value.items.length = other.items.length := by
  cases reordered with
  | same | obj => rfl
  | arr length parts => exact length

theorem distinct (reordered : value.Reordered other) (distinct : Entries.Distinct value.entries) :
    Entries.Distinct other.entries :=
  reordered.keys_perm.nodup_iff.mp distinct

theorem child (reordered : value.Reordered other) {step : Step} {part another : Json}
    (found : value.child? step = some part) (opposite : other.child? step = some another) : part.Reordered another := by
  cases reordered with
  | same =>
    cases found.symm.trans opposite
    exact .same part
  | obj keys parts => exact parts _ (Entries.mem_of_lookup found) another opposite
  | arr length parts =>
    obtain ⟨position, place, found⟩ := Option.bind_eq_some_iff.mp found
    obtain ⟨_, again, opposite⟩ := Option.bind_eq_some_iff.mp opposite
    cases place.symm.trans again
    exact parts position part another found opposite

/-- A key is in use in both values or in none. -/
theorem member?_cases (reordered : value.Reordered other) (key : String) :
    value.member? key = none ∧ other.member? key = none ∨
      ∃ part another, value.member? key = some part ∧ other.member? key = some another := by
  have present : key ∈ Entries.keys value.entries ↔ key ∈ Entries.keys other.entries := reordered.keys_perm.mem_iff
  rw [← Entries.lookup_isSome_iff, ← Entries.lookup_isSome_iff, ← member?_eq_lookup, ← member?_eq_lookup] at present
  cases found : value.member? key with
  | none => exact .inl ⟨rfl, by simpa [found] using present⟩
  | some part =>
    obtain ⟨another, opposite⟩ := Option.isSome_iff_exists.mp (present.mp (by rw [found]; rfl))
    exact .inr ⟨part, another, rfl, opposite⟩

/-- The values carry the same tag under a key that holds no value with parts. -/
theorem tag? (reordered : value.Reordered other) {key : String} (flat : value.Flat key) : value.tag? key = other.tag? key := by
  rw [Json.tag?, Json.tag?]
  rcases reordered.member?_cases key with ⟨absent, lacks⟩ | ⟨part, another, found, opposite⟩
  · rw [absent, lacks]
  · have atomic := flat [] value part rfl found
    rw [found, opposite]
    cases reordered.child (child?_of_member? found) (child?_of_member? opposite) with
    | same => rfl
    | arr | obj => cases atomic

/-- A scalar sees no more of a value with parts than that it has parts. -/
theorem scalarProblems (reordered : value.Reordered other) (form : Scalar) (required : Bool) :
    form.problems required value = form.problems required other := by
  cases reordered with
  | same => rfl
  | arr | obj => cases form <;> rfl

end Reordered

end Json

namespace Schema

variable {schema : Schema} {definitions : Entries Node} {node rule : Node} {value other : Json}

/-- Validation under the node may go by the discriminator: the node has it somewhere, or a definition has. -/
def Consults (definitions : Entries Node) (node : Node) (d : Discriminator) : Prop :=
  node.Carries d ∨ ∃ entry ∈ definitions, entry.2.Carries d

theorem Consults.of_within {inner : Node} {d : Discriminator} (consults : Consults definitions inner d)
    (inside : Node.Within inner node) : Consults definitions node d :=
  consults.imp_left (·.of_within inside)

theorem Consults.of_variant {variant : Node} {choice d : Discriminator} {tag : String}
    (selected : (build definitions).variant? choice tag = some variant) (consults : Consults definitions variant d) :
    Consults definitions node d := by
  rcases consults with carried | listed
  · obtain ⟨inner, inside, has⟩ := carried
    exact .inr (((holds_of_variant? selected).of_within inside).carried has)
  · exact .inr listed

theorem Consults.of_ruling {hops : Nat} {d : Discriminator}
    (ruled : (build definitions).ruling value hops node = .ok rule) (consults : Consults definitions rule d) :
    Consults definitions node d := by
  rcases ruling_cases ruled with rfl | ⟨choice, tag, selected⟩
  · exact consults
  · exact consults.of_variant selected

theorem ruling_eq_of_tags {hops : Nat}
    (tags : ∀ d, Consults definitions node d → value.tag? d.property = other.tag? d.property) :
    (build definitions).ruling value hops node = (build definitions).ruling other hops node := by
  induction hops generalizing node with
  | zero => rfl
  | succ hops ih =>
    unfold ruling
    cases has : node.discriminator? with
    | none => rfl
    | some d =>
      simp only [tags d (.inl ⟨node, .here, has⟩)]
      split
      · rfl
      next tag tagged =>
        split
        · rfl
        next variant selected =>
          apply ih
          intro d consults
          exact tags d (consults.of_variant selected)

theorem forall_consults_iff {property : Discriminator → Prop} :
    (∀ d, Consults definitions node d → property d) ↔ ∀ source ∈ node :: definitions.map Prod.snd,
      ∀ occurrence ∈ source.occurrences, ∀ d ∈ occurrence.2.discriminator?, property d := by
  constructor
  · intro holds source listed occurrence occurs d has
    have carried : source.Carries d := ⟨occurrence.2, Node.mem_occurrences_iff.mp ⟨occurrence.1, occurs⟩, has⟩
    rcases List.mem_cons.mp listed with rfl | listed
    · exact holds d (.inl carried)
    · obtain ⟨entry, member, rfl⟩ := List.mem_map.mp listed
      exact holds d (.inr ⟨entry, member, carried⟩)
  · intro holds d consults
    rcases consults with ⟨inner, inside, has⟩ | ⟨entry, member, inner, inside, has⟩
    · obtain ⟨location, occurs⟩ := Node.mem_occurrences_iff.mpr inside
      exact holds node List.mem_cons_self _ occurs d has
    · obtain ⟨location, occurs⟩ := Node.mem_occurrences_iff.mpr inside
      exact holds entry.2 (List.mem_cons_of_mem _ (List.mem_map_of_mem member)) _ occurs d has

/-- The problems of the part under a key, where there is one. -/
def memberProblems (schema : Schema) (value : Json) (key : String) (node : Node) : List Problem :=
  match value.member? key with
  | none => []
  | some part => (schema.problems part node).map (.under (.key key))

theorem heldProblems_map_of_distinct (distinct : Entries.Distinct value.entries) (header : Header) (element : Node) :
    schema.heldProblems value (.map header element) =
      (Entries.keys value.entries).flatMap fun key => schema.memberProblems value key element := by
  rw [heldProblems_map, Entries.keys, List.flatMap_map]
  refine congrArg List.flatten (List.map_congr_left fun entry listed => ?_)
  rw [memberProblems, Json.member?_eq_lookup, distinct.lookup_of_mem listed]

theorem memberProblems_perm (reordered : value.Reordered other) (key : String)
    (parts : ∀ part another, value.child? (.key key) = some part → other.child? (.key key) = some another →
      List.Perm (schema.problems part node) (schema.problems another node)) :
    List.Perm (schema.memberProblems value key node) (schema.memberProblems other key node) := by
  unfold memberProblems
  rcases reordered.member?_cases key with ⟨absent, lacks⟩ | ⟨part, another, found, opposite⟩
  · rw [absent, lacks]
  · rw [found, opposite]
    exact (parts part another (Json.child?_of_member? found) (Json.child?_of_member? opposite)).map _

theorem lacking_of_reordered (reordered : value.Reordered other) (properties : Entries Node) :
    lacking value properties = lacking other properties := by
  refine congrArg (List.map Prod.fst) (List.filter_congr fun entry _ => ?_)
  rcases reordered.member?_cases entry.1 with ⟨absent, lacks⟩ | ⟨part, another, found, opposite⟩
  · rw [absent, lacks]
  · rw [found, opposite]
    rfl

/-- A body finds the same problems, in another order, if its parts do. -/
theorem heldProblems_perm (distinct : Entries.Distinct value.entries) (reordered : value.Reordered other)
    (parts : ∀ next, Node.Within next rule → ∀ step part another, value.child? step = some part →
      other.child? step = some another → List.Perm (schema.problems part next) (schema.problems another next)) :
    List.Perm (schema.heldProblems value rule) (schema.heldProblems other rule) := by
  cases rule with
  | object header properties =>
    have declared : List.Perm (schema.declaredProblems value properties) (schema.declaredProblems other properties) := by
      apply List.Perm.flatMap_left
      intro entry listed
      exact memberProblems_perm reordered entry.1 (parts entry.2 (.property listed .here) (.key entry.1))
    have unknown : List.Perm (unknownProblems value properties) (unknownProblems other properties) :=
      (reordered.keys_perm.filter _).map _
    rw [heldProblems_object, heldProblems_object, lacking_of_reordered reordered]
    exact (declared.append unknown).append_right _
  | array header element minItems maxItems =>
    rw [heldProblems_array, heldProblems_array, reordered.length_items]
    apply List.Perm.append_left
    apply List.Perm.flatten_congr
    apply List.forall₂_iff_get.mpr
    refine ⟨by simp [reordered.length_items], ?_⟩
    intro position inside beyond
    simp only [List.get_eq_getElem, List.getElem_map, List.getElem_zipIdx]
    apply List.Perm.map
    exact parts element (.items .here) (.index position) _ _ (Json.child?_of_item (List.getElem?_eq_getElem _))
      (Json.child?_of_item (List.getElem?_eq_getElem _))
  | map header element =>
    rw [heldProblems_map_of_distinct distinct, heldProblems_map_of_distinct (reordered.distinct distinct)]
    apply reordered.keys_perm.flatMap
    intro key listed
    exact memberProblems_perm reordered key (parts element (.values .here) (.key key))
  | scalar header form => exact .of_eq (reordered.scalarProblems form header.required)

/-- Validation finds the same problems however the members of objects are ordered, as long as nothing that may be taken for a
tag has parts of its own. -/
theorem problems_perm_of_reordered (built : schema = build definitions) (wellFormed : value.WellFormed)
    (reordered : value.Reordered other) (flat : ∀ d, Consults definitions node d → value.Flat d.property) :
    List.Perm (schema.problems value node) (schema.problems other node) := by
  induction value using Json.induction_on_parts generalizing node other with
  | step value entries items =>
    have still : schema.ruling value greatestHops node = schema.ruling other greatestHops node := by
      rw [built]
      apply ruling_eq_of_tags
      intro d consults
      exact reordered.tag? (flat d consults)
    rw [problems_eq, problems_eq, still]
    split
    · exact .refl _
    next rule ruled =>
      apply heldProblems_perm wellFormed.distinct reordered
      intro next inside place part another found opposite
      -- A variant brings no discriminator that is not in some definition, so the part is flat for all of its own.
      have below : ∀ d, Consults definitions next d → part.Flat d.property := by
        intro d consults
        exact (flat d ((consults.of_within inside).of_ruling (built ▸ ruled))).child found
      have partWellFormed := wellFormed.child found
      have partReordered := reordered.child found opposite
      rcases Json.child?_cases found with ⟨listed, _⟩ | ⟨_, _, _, listed⟩
      · exact entries _ (Json.mem_entries_of_member? listed) partWellFormed partReordered below
      · exact items _ (List.mem_of_getElem? listed) partWellFormed partReordered below

def stop : Node := .scalar { discriminator := some ⟨"kind", [("inn", "Inn")]⟩ } Node.anyString

/-- An inn goes by a second tag, and a grand one leads on to other stops. -/
def journey : Entries Node :=
  [("Inn", .object { discriminator := some ⟨"rank", [("grand", "Grand")]⟩ } []),
    ("Grand", .object {} [("name", .scalar { required := true } Node.anyString), ("bar", .scalar { required := true } Node.anyString),
      ("next", stop)])]

def eastward : Json :=
  .obj [("a", .obj [("kind", .str "inn"), ("rank", .str "grand"), ("pets", .null), ("next", .str "b")]),
    ("b", .obj [("kind", .str "ship")])]

def westward : Json :=
  .obj [("b", .obj [("kind", .str "ship")]),
    ("a", .obj [("next", .str "b"), ("pets", .null), ("kind", .str "inn"), ("rank", .str "grand")])]

/-- Two stops in either order, one of them with its members in another order. -/
theorem problems_perm_of_reordered_journey :
    (build journey).problems eastward (.map {} stop) =
      [⟨[.key "a", .key "next"], .missing ["kind"]⟩, ⟨[.key "a", .key "kind"], .unknownKey "kind"⟩,
        ⟨[.key "a", .key "pets"], .unknownKey "pets"⟩, ⟨[.key "a"], .missing ["name", "bar"]⟩,
        ⟨[.key "b"], .unknownTag "kind" "ship"⟩] ∧
    (build journey).problems westward (.map {} stop) =
      [⟨[.key "b"], .unknownTag "kind" "ship"⟩, ⟨[.key "a", .key "next"], .missing ["kind"]⟩,
        ⟨[.key "a", .key "pets"], .unknownKey "pets"⟩, ⟨[.key "a", .key "kind"], .unknownKey "kind"⟩,
        ⟨[.key "a"], .missing ["name", "bar"]⟩] ∧
    List.Perm ((build journey).problems eastward (.map {} stop)) ((build journey).problems westward (.map {} stop)) := by
  refine ⟨rfl, rfl, ?_⟩
  have wellFormed : eastward.WellFormed := by
    simp [eastward, Json.WellFormed, Json.MembersWellFormed, Entries.Distinct, Entries.keys]
  have reordered : eastward.Reordered westward := by
    refine .obj (by decide) (List.forall_mem_cons.mpr ⟨?_, List.forall_mem_singleton.mpr ?_⟩)
    · intro other found
      cases found
      refine .obj (by decide) ?_
      simp only [List.forall_mem_cons]
      refine ⟨?_, ?_, ?_, ?_, by simp⟩ <;> intro other found <;> cases found <;> exact .same _
    · intro other found
      cases found
      exact .same _
  have flat : ∀ key, key ∉ ["a", "b"] → eastward.Flat key := by
    intro key other
    apply Json.flat_obj
    · intro part found
      exact absurd (Entries.lookup_isSome_iff.mp (Option.isSome_of_eq_some found)) other
    · refine List.forall_mem_cons.mpr ⟨?_, List.forall_mem_singleton.mpr ?_⟩
      · exact Json.flat_obj_of_atomic (by simp [Json.Atomic]) key
      · exact Json.flat_obj_of_atomic (by simp [Json.Atomic]) key
  have consulted : ∀ d, Consults journey (.map {} stop) d → d.property ∉ ["a", "b"] :=
    forall_consults_iff.mpr (by decide)
  exact problems_perm_of_reordered rfl wellFormed reordered fun d consults => flat _ (consulted d consults)

end Schema

end SchemaGuide
