import Mathlib.Data.List.Basic
import SchemaGuide.Editor
import SchemaGuide.Proofs.Governance

/-! What the check of a removal says, and how far it protects tags. The tag that selects a variant is marked in every
variant, whatever its kind, but only objects heed the mark: the tag of a map can be taken away like any other entry.
The check counts on an array wherever the schema has one, and it cannot count when a member of an object is to go. -/

namespace SchemaGuide

namespace Schema

variable {schema : Schema} {group : String} {document : Json} {path : Path} {last : Step}

/-- A removal is allowed when the path and its parent resolve and the governing parent lets the value go. -/
theorem checkRemoval_eq_ok_iff (ends : path.getLast? = some last) : schema.checkRemoval group document path = .ok () ↔
    (∃ target, schema.nodeAt group path (some document) = .ok target) ∧
    ∃ declared, schema.nodeAt group path.dropLast (some document) = .ok declared ∧
      removable (schema.governing declared (document.at? path.dropLast)) (document.at? path.dropLast) last = .ok () := by
  unfold checkRemoval
  rw [ends]
  cases reached : schema.nodeAt group path (some document) with
  | error refusal =>
    refine iff_of_false ?_ ?_
    · intro allowed
      cases allowed
    · intro ⟨⟨target, same⟩, _⟩
      cases same
  | ok target =>
    cases around : schema.nodeAt group path.dropLast (some document) with
    | error refusal =>
      refine iff_of_false ?_ ?_
      · intro allowed
        simp only [around] at allowed
        cases allowed
      · intro ⟨_, declared, same, _⟩
        cases same
    | ok declared =>
      simp only [around, Except.ok.injEq, exists_eq', true_and, exists_eq_left']
      exact mapError_eq_ok_iff

/-- A path that does not resolve is refused as navigation refuses it. -/
theorem checkRemoval_of_unresolved {refusal : Refusal}
    (lost : schema.nodeAt group (path ++ [last]) (some document) = .error refusal) :
    schema.checkRemoval group document (path ++ [last]) = .error (.refused refusal) := by
  unfold checkRemoval
  rw [List.getLast?_concat]
  simp only [lost]
  rfl

/-- Where both the path and its parent resolve, the governing parent has the last word. -/
theorem checkRemoval_concat {declared target : Node} (around : schema.nodeAt group path (some document) = .ok declared)
    (reached : schema.nodeAt group (path ++ [last]) (some document) = .ok target) :
    schema.checkRemoval group document (path ++ [last]) =
      (removable (schema.governing declared (document.at? path)) (document.at? path) last).mapError fun category =>
        match category with
        | some category => .refused ⟨group, path ++ [last], category⟩
        | none => .uncounted := by
  unfold checkRemoval
  rw [List.getLast?_concat]
  simp only [List.dropLast_concat, reached, around]
  rfl

/-- Navigation that fails names a part of the path that it was given. -/
theorem prefix_of_descend_error {node : Node} {given : Option Json} {failed : Path}
    (lost : schema.descend node given path = .error failed) : failed <+: path := by
  induction path generalizing node given failed with
  | nil => cases lost
  | cons step rest ih =>
    rw [descend] at lost
    cases entered : schema.enter? (schema.governing node given) step with
    | none =>
      rw [entered] at lost
      cases lost
      exact List.cons_prefix_cons.mpr ⟨rfl, List.nil_prefix⟩
    | some next =>
      simp only [entered] at lost
      obtain ⟨below, deeper, rfl⟩ := mapError_eq_error_iff.mp lost
      exact List.cons_prefix_cons.mpr ⟨rfl, ih deeper⟩

theorem refusal_of_nodeAt {refusal : Refusal} {given : Option Json} (lost : schema.nodeAt group path given = .error refusal) :
    refusal.group = group ∧ refusal.path <+: path := by
  unfold nodeAt at lost
  cases found : schema.definition? group with
  | none =>
    rw [found] at lost
    cases lost
    exact ⟨rfl, List.nil_prefix⟩
  | some node =>
    simp only [found] at lost
    obtain ⟨failed, walked, rfl⟩ := mapError_eq_error_iff.mp lost
    exact ⟨rfl, prefix_of_descend_error walked⟩

/-- The elements that stay cannot be counted when there are none and yet the step leads to something: to a member. -/
theorem remaining?_eq_none_iff {given : Option Json} :
    remaining? given last = none ↔ ∃ members, given = some (.obj members) ∧ last.text ∈ Entries.keys members := by
  constructor
  · intro uncounted
    simp only [remaining?] at uncounted
    split at uncounted
    · cases uncounted
    next part found empty =>
      obtain ⟨value, rfl, found⟩ := Option.bind_eq_some_iff.mp found
      have found : value.child? last = some part := found
      cases value with
      | obj members => exact ⟨members, rfl, Entries.lookup_isSome_iff.mp (Option.isSome_of_eq_some found)⟩
      | arr elements =>
        obtain ⟨position, _, found⟩ := Option.bind_eq_some_iff.mp found
        have inside : position < elements.length := (List.getElem?_eq_some_iff.mp found).1
        have counted : elements.length = 0 := empty
        omega
      | null | bool | num | str => cases found
    · cases uncounted
  · rintro ⟨members, rfl, listed⟩
    obtain ⟨part, found⟩ := Option.isSome_iff_exists.mp (Entries.lookup_isSome_iff.mpr listed)
    have found : (Json.obj members).child? last = some part := found
    rw [remaining?, Option.bind_some, found]
    rfl

theorem removable_eq_uncounted_iff {parent : Node} {given : Option Json} :
    removable parent given last = .error none ↔ parent.kind = .array ∧ remaining? given last = none := by
  cases parent with
  | object header properties =>
    refine iff_of_false ?_ nofun
    simp only [removable]
    intro uncounted
    split at uncounted
    · cases uncounted
    · split at uncounted <;> cases uncounted
  | array header items minItems maxItems =>
    simp only [removable]
    cases counted : remaining? given last with
    | none => exact iff_of_true rfl ⟨rfl, rfl⟩
    | some remaining =>
      refine iff_of_false ?_ nofun
      intro uncounted
      dsimp only at uncounted
      split at uncounted
      · split at uncounted <;> cases uncounted
      · cases uncounted
  | map header values => exact iff_of_false nofun nofun
  | scalar header form =>
    refine iff_of_false nofun ?_
    intro both
    cases form <;> cases both.1

/-- An object stands where the schema has an array, and the path leads to one of its members. -/
structure Miscounts (schema : Schema) (group : String) (document : Json) (front : Path) (last : Step) : Prop where
  resolves : ∃ target, schema.nodeAt group (front ++ [last]) (some document) = .ok target
  array : ∃ declared, schema.nodeAt group front (some document) = .ok declared ∧
    (schema.governing declared (document.at? front)).kind = .array
  member : ∃ members, document.at? front = some (.obj members) ∧ last.text ∈ Entries.keys members

theorem checkRemoval_concat_eq_uncounted_iff :
    schema.checkRemoval group document (path ++ [last]) = .error .uncounted ↔ schema.Miscounts group document path last := by
  cases reached : schema.nodeAt group (path ++ [last]) (some document) with
  | error refusal =>
    rw [checkRemoval_of_unresolved reached]
    refine iff_of_false nofun ?_
    intro miscounts
    obtain ⟨target, resolves⟩ := miscounts.resolves
    cases reached.symm.trans resolves
  | ok target =>
    obtain ⟨declared, around, _⟩ := nodeAt_append_eq_ok_iff.mp reached
    rw [checkRemoval_concat around reached]
    constructor
    · intro uncounted
      obtain ⟨category, outcome, same⟩ := mapError_eq_error_iff.mp uncounted
      cases category with
      | some category => cases same
      | none =>
        obtain ⟨array, none⟩ := removable_eq_uncounted_iff.mp outcome
        exact ⟨⟨target, reached⟩, ⟨declared, around, array⟩, remaining?_eq_none_iff.mp none⟩
    · intro miscounts
      obtain ⟨other, same, array⟩ := miscounts.array
      cases around.symm.trans same
      rw [removable_eq_uncounted_iff.mpr ⟨array, remaining?_eq_none_iff.mpr miscounts.member⟩]
      rfl

/-- A refusal is about the definition in question and the path, or the part of the path that leads nowhere. -/
theorem refusal_of_checkRemoval {refusal : Refusal}
    (refused : schema.checkRemoval group document path = .error (.refused refusal)) :
    refusal.group = group ∧ refusal.path <+: path := by
  rcases List.eq_nil_or_concat' path with rfl | ⟨front, last, rfl⟩
  · cases refused
    exact ⟨rfl, List.nil_prefix⟩
  · cases reached : schema.nodeAt group (front ++ [last]) (some document) with
    | error cause =>
      rw [checkRemoval_of_unresolved reached] at refused
      cases refused
      exact refusal_of_nodeAt reached
    | ok target =>
      obtain ⟨declared, around, _⟩ := nodeAt_append_eq_ok_iff.mp reached
      rw [checkRemoval_concat around reached] at refused
      obtain ⟨category, _, same⟩ := mapError_eq_error_iff.mp refused
      cases category with
      | none => cases same
      | some category =>
        cases same
        exact ⟨rfl, List.prefix_rfl⟩

/-- The check fails to count in one situation only; in every other it allows the removal or refuses it for a reason. -/
theorem checkRemoval_uncounted_iff (schema : Schema) (group : String) (document : Json) (path : Path) :
    (schema.checkRemoval group document path = .error .uncounted ↔
      ∃ front last, path = front ++ [last] ∧ schema.Miscounts group document front last) ∧
    ((¬ ∃ front last, path = front ++ [last] ∧ schema.Miscounts group document front last) →
      schema.checkRemoval group document path = .ok () ∨
        ∃ refusal, schema.checkRemoval group document path = .error (.refused refusal) ∧
          refusal.group = group ∧ refusal.path <+: path) := by
  have counts : schema.checkRemoval group document path = .error .uncounted ↔
      ∃ front last, path = front ++ [last] ∧ schema.Miscounts group document front last := by
    rcases List.eq_nil_or_concat' path with rfl | ⟨front, last, rfl⟩
    · refine iff_of_false nofun ?_
      rintro ⟨front, last, same, _⟩
      cases (List.append_eq_nil_iff.mp same.symm).2
    · rw [checkRemoval_concat_eq_uncounted_iff]
      constructor
      · exact fun miscounts => ⟨front, last, rfl, miscounts⟩
      · rintro ⟨_, _, same, miscounts⟩
        obtain ⟨rfl, rfl⟩ := List.append_singleton_inj.mp same
        exact miscounts
  refine ⟨counts, fun counted => ?_⟩
  cases outcome : schema.checkRemoval group document path with
  | ok => exact .inl rfl
  | error objection =>
    cases objection with
    | refused refusal => exact .inr ⟨refusal, rfl, refusal_of_checkRemoval outcome⟩
    | uncounted => exact absurd (counts.mp outcome) counted

def rows : Entries Node := [("Root", .object {} [("rows", .array {} (.scalar {} Node.anyString) (some 1) none)])]

/-- Of an object in the place of an array the member `0` cannot be let go; of an array the only element is refused. -/
theorem checkRemoval_uncounted_iff_rows :
    (build rows).checkRemoval "Root" (.obj [("rows", .obj [("0", .str "x")])]) [.key "rows", .index 0] = .error .uncounted ∧
    (¬ ∃ front last, [.key "rows", .index 0] = front ++ [last] ∧
      (build rows).Miscounts "Root" (.obj [("rows", .arr [.str "x"])]) front last) ∧
    ((build rows).checkRemoval "Root" (.obj [("rows", .arr [.str "x"])]) [.key "rows", .index 0] = .ok () ∨
      ∃ refusal, (build rows).checkRemoval "Root" (.obj [("rows", .arr [.str "x"])]) [.key "rows", .index 0] =
        .error (.refused refusal) ∧ refusal.group = "Root" ∧ refusal.path <+: [.key "rows", .index 0]) := by
  have miscounts : (build rows).Miscounts "Root" (.obj [("rows", .obj [("0", .str "x")])]) [.key "rows"] (.index 0) :=
    ⟨⟨_, rfl⟩, ⟨_, rfl, rfl⟩, ⟨_, rfl, by decide⟩⟩
  have counted : ¬ ∃ front last, [.key "rows", .index 0] = front ++ [last] ∧
      (build rows).Miscounts "Root" (.obj [("rows", .arr [.str "x"])]) front last := by
    rintro ⟨front, last, same, miscounts⟩
    obtain ⟨rfl, rfl⟩ := List.append_singleton_inj.mp (show [Step.key "rows"] ++ [.index 0] = front ++ [last] from same)
    obtain ⟨members, stands, _⟩ := miscounts.member
    cases stands
  exact ⟨(checkRemoval_uncounted_iff _ _ _ _).1.mpr ⟨_, _, rfl, miscounts⟩, counted,
    (checkRemoval_uncounted_iff _ _ _ _).2 counted⟩

private theorem removable_tag_iff {variant : Node} {value part : Json} (marked : variant.isReadOnly last.text)
    (present : value.member? last.text = some part) :
    removable variant (some value) last = .ok () ↔ variant.kind = .map := by
  cases variant with
  | object header properties => simp [removable, marked, Node.kind]
  | array header element minItems maxItems =>
    cases value with
    | obj members =>
      have found : (Json.obj members).child? last = some part := present
      have uncounted : remaining? (some (.obj members)) last = none := by
        rw [remaining?, Option.bind_some, found]
        rfl
      simp [removable, uncounted, Node.kind]
    | null | bool | num | str | arr => cases present
  | map header element => exact iff_of_true rfl rfl
  | scalar header form => cases form <;> simp [removable, Node.kind, Scalar.kind]

variable (schema) in
private theorem exists_enter?_of_map {variant : Node} (kind : variant.kind = .map) (step : Step) :
    ∃ target, schema.enter? variant step = some target := by
  cases variant with
  | map header element =>
    rw [enter?]
    cases schema.taggedBy? (.map header element) step with
    | none => exact ⟨element, rfl⟩
    | some target => exact ⟨target, rfl⟩
  | object | array => cases kind
  | scalar header form => cases form <;> cases kind

/-- The removal of a tag that selects a variant is allowed for maps, and only for them. -/
theorem checkRemoval_tag_iff {definitions : Entries Node} (built : schema = build definitions)
    (ends : path.getLast? = some last) {declared variant : Node} {d : Discriminator}
    (around : schema.nodeAt group path.dropLast (some document) = .ok declared)
    (has : declared.discriminator? = some d)
    (selected : schema.selected? declared (document.at? path.dropLast) = some variant) (names : last.text = d.property) :
    schema.checkRemoval group document path = .ok () ↔ variant.kind = .map := by
  have rules : schema.governing declared (document.at? path.dropLast) = variant := by
    rw [governing, selected, Option.getD_some]
  obtain ⟨other, value, tag, same, stands, tagged, led⟩ := selected?_eq_some_iff.mp selected
  cases has.symm.trans same
  obtain ⟨part, present, _⟩ := Option.bind_eq_some_iff.mp tagged
  have marked : variant.isReadOnly last.text := by
    subst built
    rw [names]
    exact markedVariants_build definitions d tag variant led
  rw [← names] at present
  have free := removable_tag_iff marked present
  constructor
  · intro allowed
    obtain ⟨_, declared', around', removed⟩ := (checkRemoval_eq_ok_iff ends).mp allowed
    cases around.symm.trans around'
    rw [rules, stands] at removed
    exact free.mp removed
  · intro kind
    obtain ⟨target, entered⟩ := schema.exists_enter?_of_map kind last
    have whole : path.dropLast ++ [last] = path := by
      obtain ⟨front, rfl⟩ := List.getLast?_eq_some_iff.mp ends
      rw [List.dropLast_concat]
    have arrived := nodeAt_append_eq_ok_iff.mpr ⟨declared, around, descend_singleton (rules.symm ▸ entered)⟩
    rw [whole] at arrived
    refine (checkRemoval_eq_ok_iff ends).mpr ⟨⟨target, arrived⟩, declared, around, ?_⟩
    rw [rules, stands]
    exact free.mpr kind

def byShelf : Discriminator := ⟨"kind", [("m", "#/definitions/M"), ("o", "#/definitions/O")]⟩

/-- One tag stands for a map and one for an object. -/
def shelves : Entries Node :=
  [("Root", .object {} [("v", .object { discriminator := some byShelf } [])]),
    ("M", .map {} (.scalar {} Node.anyString)), ("O", .object {} [])]

/-- The tag of an object must stay. -/
theorem checkRemoval_tag_iff_shelves :
    (build shelves).checkRemoval "Root" (.obj [("v", .obj [("kind", .str "o")])]) [.key "v", .key "kind"] ≠ .ok () := by
  have around : (build shelves).nodeAt "Root" [.key "v"] (some (.obj [("v", .obj [("kind", .str "o")])])) =
      .ok (.object { discriminator := some byShelf } []) := rfl
  have ends : List.getLast? [Step.key "v", .key "kind"] = some (.key "kind") := rfl
  intro allowed
  cases (checkRemoval_tag_iff rfl ends around rfl rfl rfl).mp allowed

/-- The tag of a map may go, though the map has it marked, and the document that is left has a problem. -/
theorem checkRemoval_tag_of_map :
    (∃ variant, (build shelves).nodeAt "Root" [.key "v"] (some (.obj [("v", .obj [("kind", .str "m")])])) =
        .ok (.object { discriminator := some byShelf } []) ∧
      (build shelves).selected? (.object { discriminator := some byShelf } []) (some (.obj [("kind", .str "m")])) =
        some variant ∧ variant.isReadOnly "kind" = true) ∧
    (build shelves).checkRemoval "Root" (.obj [("v", .obj [("kind", .str "m")])]) [.key "v", .key "kind"] = .ok () ∧
    (Editor.mk (build shelves) "Root" Editor.standardSuffix).validate (.obj [("v", .obj [("kind", .str "m")])]) = [] ∧
    (Editor.mk (build shelves) "Root" Editor.standardSuffix).validate (.obj [("v", .obj [])]) =
      [⟨[.key "v"], .missing ["kind"]⟩] :=
  ⟨⟨_, rfl, rfl, rfl⟩, rfl, rfl, rfl⟩

end Schema

end SchemaGuide
