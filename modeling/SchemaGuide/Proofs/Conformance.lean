import SchemaGuide.Proofs.TagClosure
import SchemaGuide.Proofs.Validation

/-! When a value conforms to a node, said without reference to problems and their order. Validation finds no problem
exactly where a value conforms. Nodes may lead to one another in circles; what grows smaller is the value, and between
two parts of it the number of tags that are still followed. -/

namespace SchemaGuide

namespace Json

/-- What stands under the property counts as given and reads as the tag; all but strings read as their text. -/
def HasTag (value : Json) (property tag : String) : Prop :=
  ∃ raw, value.member? property = some raw ∧ raw.isTruthy = true ∧
    (raw = .str tag ∨ raw.string? = none ∧ tag = raw.compact)

/-- Null, false and the empty string stand for no value. -/
def Blank (value : Json) : Prop := value = .null ∨ value = .bool false ∨ value = .str ""

/-- A number stands for itself, and a string for the finite number that it spells between blanks. -/
inductive Denotes : Json → Float → Prop where
  | number (n : Number) : Denotes (.num n) n.toFloat
  | text {text : String} {x : Float} (spelled : Decimal.Reading.float? (Text.trim text.toList) = some x)
      (finite : x.isFinite = true) : Denotes (.str text) x

theorem hasTag_iff {value : Json} {property tag : String} :
    value.HasTag property tag ↔ value.tag? property = some tag := by
  simp only [HasTag, tag?, Option.bind_eq_some_iff]
  refine exists_congr fun raw => and_congr_right fun _ => ?_
  unfold asTag?
  cases given : raw.isTruthy with
  | false => simp
  | true => cases raw <;> simp [string?, eq_comm]

theorem isEmpty_iff_blank {value : Json} : value.isEmpty = true ↔ value.Blank := by
  unfold Blank
  cases value <;> simp [isEmpty, isTruthy]

theorem asNumber?_eq_some_iff {value : Json} {x : Float} : value.asNumber? = some x ↔ value.Denotes x := by
  constructor
  · intro read
    cases value with
    | num n =>
      cases read
      exact .number n
    | str text =>
      obtain ⟨spelled, finite⟩ := Option.filter_eq_some_iff.mp read
      exact .text spelled finite
    | null | bool | arr | obj => cases read
  · rintro (n | ⟨spelled, finite⟩)
    · rfl
    · exact Option.filter_eq_some_iff.mpr ⟨spelled, finite⟩

end Json

namespace Scalar

/-- What a value must be if it is one at all. Bounds of zero do not bind. -/
def Suits (value : Json) : Scalar → Prop
  | string allowed _ => ∃ text, value = .str text ∧ (allowed ≠ [] → text ∈ allowed)
  | number minimum maximum _ => ∃ x, value.Denotes x ∧
      (∀ bound, minimum = some bound → (bound != 0.0) = true → ¬ x < bound) ∧
      ∀ bound, maximum = some bound → (bound != 0.0) = true → ¬ bound < x
  | boolean _ => ∃ flag, value = .bool flag
  | unspecified _ => True

def Accepts (required : Bool) (value : Json) (form : Scalar) : Prop :=
  (value.Blank → required = false) ∧ (¬ value.Blank → form.Suits value)

private theorem rangeProblems_eq_nil_iff {minimum maximum : Option Float} {x : Float} :
    rangeProblems minimum maximum x = [] ↔
      (∀ bound, minimum = some bound → (bound != 0.0) = true → ¬ x < bound) ∧
      ∀ bound, maximum = some bound → (bound != 0.0) = true → ¬ bound < x := by
  simp only [List.eq_nil_iff_forall_not_mem, mem_rangeProblems]
  constructor
  · intro none
    constructor
    · intro bound bounded binds less
      exact none _ (.inl ⟨bound, bounded, binds, less, rfl⟩)
    · intro bound bounded binds more
      exact none _ (.inr ⟨bound, bounded, binds, more, rfl⟩)
  · rintro ⟨low, high⟩ problem (⟨bound, bounded, binds, less, _⟩ | ⟨bound, bounded, binds, more, _⟩)
    · exact low bound bounded binds less
    · exact high bound bounded binds more

private theorem shapeProblems_eq_nil_iff {form : Scalar} {value : Json} :
    form.shapeProblems value = [] ↔ form.Suits value := by
  cases form with
  | string allowed literal =>
    cases value with
    | str text => simp [shapeProblems, Suits, Json.string?]
    | null | bool | num | arr | obj => simp [shapeProblems, Suits, Json.string?]
  | number minimum maximum literal =>
    simp only [shapeProblems, Suits, ← Json.asNumber?_eq_some_iff]
    cases value.asNumber? with
    | none => simp
    | some x =>
      simp only [rangeProblems_eq_nil_iff, Option.some.injEq]
      constructor
      · intro bounds
        exact ⟨x, rfl, bounds⟩
      · rintro ⟨_, rfl, bounds⟩
        exact bounds
  | boolean literal => cases value <;> simp [shapeProblems, Suits, Json.bool?]
  | unspecified literal => simp [shapeProblems, Suits]

theorem problems_eq_nil_iff_accepts {form : Scalar} {required : Bool} {value : Json} :
    form.problems required value = [] ↔ form.Accepts required value := by
  unfold problems Accepts
  rw [← Json.isEmpty_iff_blank]
  cases empty : value.isEmpty with
  | true => simp
  | false => simp [shapeProblems_eq_nil_iff]

end Scalar

/-- The body of a node admits a value whose parts are in the given relation to their nodes. -/
def Node.Admits (holds : Node → Json → Prop) (value : Json) : Node → Prop
  | .object _ properties =>
    (∀ entry ∈ properties, entry.2.isRequired = true → ∃ part, value.member? entry.1 = some part) ∧
    (∀ entry ∈ value.entries, entry.1 ∈ Entries.keys properties) ∧
    ∀ entry ∈ properties, ∀ part, value.member? entry.1 = some part → holds entry.2 part
  | .array _ node minItems maxItems =>
    (∀ bound, minItems = some bound → 0 ≤ bound → bound ≤ value.items.length) ∧
    (∀ bound, maxItems = some bound → 0 ≤ bound → value.items.length ≤ bound) ∧
    ∀ item ∈ value.items, holds node item
  | .map _ node => ∀ entry ∈ value.entries, holds node entry.2
  | .scalar header form => form.Accepts header.required value

/-- Tags are followed from the first node to the second, at most as often as there are hops. -/
inductive Governs (follow : Discriminator → String → Option Node) (value : Json) : Nat → Node → Node → Prop where
  | body {hops : Nat} {node : Node} (plain : node.discriminator? = none) : Governs follow value hops node node
  | exhausted {node : Node} : Governs follow value 0 node node
  | hop {hops : Nat} {node next rule : Node} {d : Discriminator} {tag : String}
      (has : node.discriminator? = some d) (tagged : value.HasTag d.property tag) (led : follow d tag = some next)
      (rest : Governs follow value hops next rule) : Governs follow value (hops + 1) node rule

/-- A value conforms to a node when the body that its tags lead to admits it, all of its parts conforming to theirs. -/
inductive Conforms (follow : Discriminator → String → Option Node) : Node → Json → Prop where
  | object {node : Node} {value : Json} {header : Header} {properties : Entries Node}
      (ruled : Governs follow value 8 node (.object header properties))
      (complete : ∀ entry ∈ properties, entry.2.isRequired = true → ∃ part, value.member? entry.1 = some part)
      (declared : ∀ entry ∈ value.entries, entry.1 ∈ Entries.keys properties)
      (fields : ∀ entry ∈ properties, ∀ part, value.member? entry.1 = some part → Conforms follow entry.2 part) :
      Conforms follow node value
  | array {node : Node} {value : Json} {header : Header} {element : Node} {minItems maxItems : Option Int}
      (ruled : Governs follow value 8 node (.array header element minItems maxItems))
      (enough : ∀ bound, minItems = some bound → 0 ≤ bound → bound ≤ value.items.length)
      (few : ∀ bound, maxItems = some bound → 0 ≤ bound → value.items.length ≤ bound)
      (elements : ∀ item ∈ value.items, Conforms follow element item) : Conforms follow node value
  | map {node : Node} {value : Json} {header : Header} {element : Node}
      (ruled : Governs follow value 8 node (.map header element))
      (elements : ∀ entry ∈ value.entries, Conforms follow element entry.2) : Conforms follow node value
  | scalar {node : Node} {value : Json} {header : Header} {form : Scalar}
      (ruled : Governs follow value 8 node (.scalar header form))
      (accepted : form.Accepts header.required value) : Conforms follow node value

theorem conforms_iff_admits {follow : Discriminator → String → Option Node} {node : Node} {value : Json} :
    Conforms follow node value ↔
      ∃ rule, Governs follow value 8 node rule ∧ rule.Admits (Conforms follow) value := by
  constructor
  · intro conforms
    cases conforms with
    | object ruled complete declared fields => exact ⟨_, ruled, complete, declared, fields⟩
    | array ruled enough few elements => exact ⟨_, ruled, enough, few, elements⟩
    | map ruled elements => exact ⟨_, ruled, elements⟩
    | scalar ruled accepted => exact ⟨_, ruled, accepted⟩
  · rintro ⟨rule, ruled, admitted⟩
    cases rule with
    | object header properties => exact .object ruled admitted.1 admitted.2.1 admitted.2.2
    | array header element minItems maxItems => exact .array ruled admitted.1 admitted.2.1 admitted.2.2
    | map header element => exact .map ruled admitted
    | scalar header form => exact .scalar ruled admitted

/-- Only the nodes that the body has for the parts of a value matter to whether it admits the value. -/
theorem Node.Admits.imp {first second : Node → Json → Prop} {value : Json} {rule : Node}
    (admitted : rule.Admits first value)
    (entries : ∀ entry ∈ value.entries, ∀ node, node.Within rule → first node entry.2 → second node entry.2)
    (items : ∀ item ∈ value.items, ∀ node, node.Within rule → first node item → second node item) :
    rule.Admits second value := by
  cases rule with
  | object header properties =>
    obtain ⟨complete, declared, fields⟩ := admitted
    refine ⟨complete, declared, fun entry member part found => ?_⟩
    exact entries _ (Json.mem_entries_of_member? found) _ (.property member .here) (fields entry member part found)
  | array header element minItems maxItems =>
    obtain ⟨enough, few, elements⟩ := admitted
    exact ⟨enough, few, fun item member => items item member _ (.items .here) (elements item member)⟩
  | map header element =>
    exact fun entry member => entries entry member _ (.values .here) (admitted entry member)
  | scalar header form => exact admitted

theorem lengthProblems_eq_nil_iff {length : Nat} {minItems maxItems : Option Int} :
    lengthProblems length minItems maxItems = [] ↔
      (∀ bound, minItems = some bound → 0 ≤ bound → bound ≤ length) ∧
      ∀ bound, maxItems = some bound → 0 ≤ bound → length ≤ bound := by
  simp only [List.eq_nil_iff_forall_not_mem, Schema.mem_lengthProblems_iff]
  constructor
  · intro none
    constructor
    · intro bound bounded binds
      exact Int.not_lt.mp fun short => none _ (.inr ⟨bound, bounded, binds, short, rfl⟩)
    · intro bound bounded binds
      exact Int.not_lt.mp fun long => none _ (.inl ⟨bound, bounded, binds, long, rfl⟩)
  · rintro ⟨enough, few⟩ problem (⟨bound, bounded, binds, long, _⟩ | ⟨bound, bounded, binds, short, _⟩)
    · exact Int.not_lt.mpr (few bound bounded binds) long
    · exact Int.not_lt.mpr (enough bound bounded binds) short

namespace Schema

variable {schema : Schema}

theorem declaredProblems_eq_nil_iff {value : Json} {properties : Entries Node} :
    schema.declaredProblems value properties = [] ↔
      ∀ entry ∈ properties, ∀ part, value.member? entry.1 = some part → schema.problems part entry.2 = [] := by
  rw [declaredProblems, List.flatMap_eq_nil_iff]
  refine forall₂_congr fun entry _ => ?_
  cases value.member? entry.1 <;> simp

theorem unknownProblems_eq_nil_iff {value : Json} {properties : Entries Node} :
    unknownProblems value properties = [] ↔ ∀ entry ∈ value.entries, entry.1 ∈ Entries.keys properties := by
  rw [unknownProblems, List.map_eq_nil_iff, List.filter_eq_nil_iff]
  simp [Entries.keys]

theorem lacking_eq_nil_iff {value : Json} {properties : Entries Node} :
    lacking value properties = [] ↔
      ∀ entry ∈ properties, entry.2.isRequired = true → ∃ part, value.member? entry.1 = some part := by
  rw [lacking, List.map_eq_nil_iff, List.filter_eq_nil_iff]
  refine forall₂_congr fun entry _ => ?_
  cases value.member? entry.1 <;> simp

theorem heldProblems_eq_nil_iff {value : Json} {rule : Node} :
    schema.heldProblems value rule = [] ↔ rule.Admits (fun node part => schema.problems part node = []) value := by
  cases rule with
  | object header properties =>
    rw [heldProblems_object, List.append_eq_nil_iff, List.append_eq_nil_iff, missingProblems_eq_nil_iff,
      declaredProblems_eq_nil_iff, unknownProblems_eq_nil_iff, lacking_eq_nil_iff]
    constructor
    · rintro ⟨⟨fields, declared⟩, complete⟩
      exact ⟨complete, declared, fields⟩
    · rintro ⟨complete, declared, fields⟩
      exact ⟨⟨fields, declared⟩, complete⟩
  | array header element minItems maxItems =>
    rw [heldProblems_array, List.append_eq_nil_iff, lengthProblems_eq_nil_iff, and_assoc, List.flatMap_eq_nil_iff]
    refine and_congr_right fun _ => and_congr_right fun _ => ?_
    constructor
    · intro found item member
      rw [← List.zipIdx_map_fst 0 value.items] at member
      obtain ⟨entry, listed, rfl⟩ := List.mem_map.mp member
      exact List.map_eq_nil_iff.mp (found entry listed)
    · intro elements entry listed
      exact List.map_eq_nil_iff.mpr (elements entry.1 (List.fst_mem_of_mem_zipIdx listed))
  | map header element =>
    rw [heldProblems_map, List.flatMap_eq_nil_iff]
    exact forall₂_congr fun entry _ => List.map_eq_nil_iff
  | scalar header form => exact Scalar.problems_eq_nil_iff_accepts

/-- A value is free of problems when its tags lead to a body that admits it. -/
theorem problems_eq_nil_iff_admits {value : Json} {node : Node} :
    schema.problems value node = [] ↔ ∃ rule, schema.ruling value greatestHops node = .ok rule ∧
      rule.Admits (fun node part => schema.problems part node = []) value := by
  rw [problems_eq]
  cases schema.ruling value greatestHops node with
  | error cause => simp
  | ok rule => simp [heldProblems_eq_nil_iff]

theorem ruling_eq_ok_iff {value : Json} {hops : Nat} {node rule : Node} :
    schema.ruling value hops node = .ok rule ↔ Governs schema.variant? value hops node rule := by
  induction hops generalizing node with
  | zero =>
    constructor
    · intro ruled
      cases ruled
      exact .exhausted
    · rintro (plain | _)
      all_goals rfl
  | succ hops ih =>
    constructor
    · intro ruled
      unfold ruling at ruled
      split at ruled
      next plain =>
        cases ruled
        exact .body plain
      next d has =>
        split at ruled
        · cases ruled
        next tag tagged =>
          split at ruled
          · cases ruled
          next next led => exact .hop has (Json.hasTag_iff.mpr tagged) led (ih.mp ruled)
    · intro governs
      cases governs with
      | body plain => simp [ruling, plain]
      | hop has tagged led rest => simp [ruling, has, Json.hasTag_iff.mp tagged, led, ih.mpr rest]

/-- Conformance with the variants of the schema, for any node whatever. -/
theorem problems_eq_nil_iff_conforms_variant (value : Json) (node : Node) :
    schema.problems value node = [] ↔ Conforms schema.variant? node value := by
  induction value using Json.induction_on_parts generalizing node with
  | step value entries items =>
    rw [problems_eq_nil_iff_admits, conforms_iff_admits]
    refine exists_congr fun rule => and_congr ruling_eq_ok_iff ⟨fun admitted => ?_, fun admitted => ?_⟩
    · exact admitted.imp (fun entry member node _ => (entries entry member node).mp)
        fun item member node _ => (items item member node).mp
    · exact admitted.imp (fun entry member node _ => (entries entry member node).mpr)
        fun item member node _ => (items item member node).mpr

variable {definitions : Entries Node}

private theorem Holds.governs_mapped {value : Json} {hops : Nat} {node rule : Node} (held : (build definitions).Holds node)
    (ruled : Governs (build definitions).variant? value hops node rule) :
    Governs (build definitions).mapped? value hops node rule ∧ (build definitions).Holds rule := by
  induction ruled with
  | body plain => exact ⟨.body plain, held⟩
  | exhausted => exact ⟨.exhausted, held⟩
  | hop has tagged led _ ih =>
    obtain ⟨rest, last⟩ := ih (holds_of_variant? led)
    exact ⟨.hop has tagged (held.variant?_eq_mapped? has _ ▸ led) rest, last⟩

private theorem Holds.governs_variant {value : Json} {hops : Nat} {node rule : Node} (held : (build definitions).Holds node)
    (ruled : Governs (build definitions).mapped? value hops node rule) :
    Governs (build definitions).variant? value hops node rule := by
  induction ruled with
  | body plain => exact .body plain
  | exhausted => exact .exhausted
  | hop has tagged led _ ih =>
    rw [← held.variant?_eq_mapped? has] at led
    exact .hop has tagged led (ih (holds_of_variant? led))

/-- For nodes of the schema it makes no difference whether a tag is looked up among the variants or led to its
definition. -/
private theorem Holds.conforms_iff {value : Json} {node : Node} (held : (build definitions).Holds node) :
    Conforms (build definitions).variant? node value ↔ Conforms (build definitions).mapped? node value := by
  induction value using Json.induction_on_parts generalizing node with
  | step value entries items =>
    rw [conforms_iff_admits, conforms_iff_admits]
    constructor
    · rintro ⟨rule, ruled, admitted⟩
      obtain ⟨mapped, last⟩ := held.governs_mapped ruled
      exact ⟨rule, mapped, admitted.imp
        (fun entry member node inside => (entries entry member (last.of_within inside)).mp)
        fun item member node inside => (items item member (last.of_within inside)).mp⟩
    · rintro ⟨rule, ruled, admitted⟩
      have selected := held.governs_variant ruled
      have last := (held.governs_mapped selected).2
      exact ⟨rule, selected, admitted.imp
        (fun entry member node inside => (entries entry member (last.of_within inside)).mpr)
        fun item member node inside => (items item member (last.of_within inside)).mpr⟩

/-- Validation finds nothing exactly where a value conforms. Any node is held to the variants that the schema has; for
the nodes of the schema itself these are the definitions that its tags are mapped to. -/
theorem problems_eq_nil_iff_conforms (definitions : Entries Node) (node : Node) (value : Json) :
    ((build definitions).problems value node = [] ↔ Conforms (build definitions).variant? node value) ∧
    ((build definitions).Holds node →
      ((build definitions).problems value node = [] ↔ Conforms (build definitions).mapped? node value)) :=
  ⟨problems_eq_nil_iff_conforms_variant value node, fun held =>
    (problems_eq_nil_iff_conforms_variant value node).trans held.conforms_iff⟩

/-- A leaf inside a leaf conforms to a node that leads back to itself, and a tag without a definition does not. -/
theorem problems_eq_nil_iff_conforms_sharedLeaf :
    (build sharedLeaf).Holds branch ∧
    Conforms (build sharedLeaf).mapped? branch (.obj [("below", .obj [("kind", .str "leaf")]), ("kind", .str "leaf")]) ∧
    ¬ Conforms (build sharedLeaf).mapped? branch (.obj [("kind", .str "gone")]) := by
  have found : (build sharedLeaf).definition? "leaf" = some _ := rfl
  have held : (build sharedLeaf).Holds branch :=
    (holds_of_definition? found).of_within (.property (.tail _ (.head _)) .here)
  have free value := (problems_eq_nil_iff_conforms sharedLeaf branch value).2 held
  exact ⟨held, (free _).mp rfl, fun conforms => absurd ((free _).mpr conforms) (by decide)⟩

end Schema

end SchemaGuide
