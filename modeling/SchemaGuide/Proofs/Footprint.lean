import SchemaGuide.Proofs.Parts

/-! What a removal touches. Reading and removing follow a path by the same steps, so a removal takes away what reading
finds there and nothing else: the container changes, all around it keeps its outline, and all that lies elsewhere stays. -/

namespace SchemaGuide.Json

/-- The step that a value itself has for a child: an object knows names only, an array positions only. -/
def naming (value : Json) (step : Step) : Step :=
  match value with
  | .obj _ => .key step.text
  | .arr _ => (step.position?.map .index).getD step
  | _ => step

/-- The position of a path in a document: its steps as the values on the way have them. -/
def place (value : Json) : Path → Path
  | [] => []
  | step :: rest =>
    value.naming step :: match value.child? step with
      | none => rest
      | some part => part.place rest

/-- The container loses the part at a step. In an object the last member takes the place that becomes free. -/
inductive Loses (step : Step) (part : Json) : Json → Json → Prop where
  | last {before : Entries Json} (absent : step.text ∉ Entries.keys before) :
      Loses step part (.obj (before ++ [(step.text, part)])) (.obj before)
  | member {before between : Entries Json} {final : String × Json} (absent : step.text ∉ Entries.keys before) :
      Loses step part (.obj (before ++ (step.text, part) :: (between ++ [final]))) (.obj (before ++ final :: between))
  | element {before after : List Json} (place : step.position? = some before.length) :
      Loses step part (.arr (before ++ part :: after)) (.arr (before ++ after))

/-- The same outline: an object with the same keys in the same order, or an array with as many elements. -/
inductive SameOutline : Json → Json → Prop where
  | object {members others : Entries Json} (keys : Entries.keys others = Entries.keys members) :
      SameOutline (.obj members) (.obj others)
  | array {elements others : List Json} (length : others.length = elements.length) :
      SameOutline (.arr elements) (.arr others)

variable {value part : Json} {step other : Step} {path front : Path} {change : Json → Json}

theorem child?_naming (value : Json) (step : Step) : value.child? (value.naming step) = value.child? step := by
  cases value with
  | arr elements =>
    unfold naming
    cases place : step.position? with
    | none => rfl
    | some position =>
      simp only [child?, place]
      rfl
  | null | bool | num | str | obj => rfl

theorem adjustChild_naming (value : Json) (step : Step) (change : Json → Json) :
    value.adjustChild (value.naming step) change = value.adjustChild step change := by
  cases value with
  | arr elements =>
    unfold naming
    cases place : step.position? with
    | none => rfl
    | some position =>
      simp only [adjustChild, place]
      rfl
  | null | bool | num | str | obj => rfl

theorem child?_of_naming_eq (same : value.naming other = value.naming step) : value.child? other = value.child? step := by
  rw [← child?_naming, same, child?_naming]

/-- A change at one step is not seen at a step that names another child. -/
theorem child?_adjustChild_of_ne (apart : value.naming other ≠ value.naming step) :
    (value.adjustChild step change).child? other = value.child? other := by
  cases value with
  | obj members =>
    have different : other.text ≠ step.text := fun same => apart (congrArg Step.key same)
    exact (Entries.lookup_adjust step.text other.text change members).trans (if_neg different)
  | arr elements =>
    simp only [adjustChild, child?]
    cases here : step.position? with
    | none => rfl
    | some position =>
      cases there : other.position? with
      | none => rfl
      | some second =>
        have different : position ≠ second := by
          intro same
          apply apart
          simp [naming, here, there, same]
        exact List.getElem?_modify_ne change elements different
  | null | bool | num | str => rfl

theorem sameOutline_adjustChild (found : value.child? step = some part) (change : Json → Json) :
    SameOutline value (value.adjustChild step change) := by
  cases value with
  | obj members => exact .object (Entries.keys_adjust step.text change members)
  | arr elements => exact .array (length_items_adjustChild (.arr elements) step change)
  | null | bool | num | str => cases found

theorem loses_removeChild (found : value.child? step = some part) : Loses step part value (value.removeChild step) := by
  cases value with
  | obj members =>
    obtain ⟨before, after, rfl, different⟩ := List.lookup_eq_some_iff.mp found
    have absent : step.text ∉ Entries.keys before := by
      intro listed
      obtain ⟨entry, member, same⟩ := List.mem_map.mp listed
      simpa [same] using different entry member
    rw [removeChild, Entries.swapErase_append absent]
    cases ending : after.getLast? with
    | none =>
      obtain rfl := List.getLast?_eq_none_iff.mp ending
      simpa [Entries.swapErase] using Loses.last absent
    | some final =>
      obtain ⟨between, rfl⟩ := List.getLast?_eq_some_iff.mp ending
      simpa [Entries.swapErase] using Loses.member absent
  | arr elements =>
    obtain ⟨position, place, found⟩ := Option.bind_eq_some_iff.mp found
    obtain ⟨inside, rfl⟩ := List.getElem?_eq_some_iff.mp found
    have length : (elements.take position).length = position := List.length_take_of_le (Nat.le_of_lt inside)
    have lost : Loses step elements[position] (.arr (elements.take position ++ elements[position] :: elements.drop (position + 1)))
        (.arr (elements.take position ++ elements.drop (position + 1))) := .element (place.trans (congrArg some length.symm))
    rw [← List.drop_eq_getElem_cons inside, List.take_append_drop] at lost
    simpa only [removeChild, place, Option.map_some, Option.getD_some, List.eraseIdx_eq_take_drop_succ] using lost
  | null | bool | num | str => cases found

theorem child?_adjustChild_of_eq (same : value.naming other = value.naming step) :
    (value.adjustChild step change).child? other = (value.child? step).map change := by
  rw [← adjustChild_naming, ← same, adjustChild_naming, child?_adjustChild, child?_of_naming_eq same]

/-- A change at a path is not seen at a position that is neither on the way to it nor below it. -/
theorem at?_changeAt_of_apart (outside : ¬ value.place front <+: value.place path)
    (around : ¬ value.place path <+: value.place front) : (value.changeAt front change).at? path = value.at? path := by
  induction front generalizing value path with
  | nil => exact absurd List.nil_prefix outside
  | cons step rest ih =>
    cases path with
    | nil => exact absurd List.nil_prefix around
    | cons other further =>
      rw [changeAt, at?, at?]
      by_cases same : value.naming other = value.naming step
      · rw [child?_adjustChild_of_eq same, child?_of_naming_eq same]
        cases found : value.child? step with
        | none => rfl
        | some part =>
          simp only [place, child?_of_naming_eq same, found, same, List.cons_prefix_cons, true_and] at outside around
          exact ih outside around
      · rw [child?_adjustChild_of_ne same]

/-- What lies on the way to a change keeps its outline. -/
theorem exists_sameOutline_changeAt (stands : value.at? front = some part) (encloses : value.place path <+: value.place front)
    (proper : value.place path ≠ value.place front) (change : Json → Json) :
    ∃ around changed, value.at? path = some around ∧ (value.changeAt front change).at? path = some changed ∧
      SameOutline around changed := by
  induction front generalizing value path with
  | nil => exact absurd (List.prefix_nil.mp encloses) proper
  | cons step rest ih =>
    obtain ⟨child, found, stands⟩ := Option.bind_eq_some_iff.mp stands
    cases path with
    | nil => exact ⟨value, _, rfl, rfl, sameOutline_adjustChild found _⟩
    | cons other further =>
      simp only [place, List.cons_prefix_cons] at encloses
      obtain ⟨same, encloses⟩ := encloses
      simp only [place, child?_of_naming_eq same, found] at encloses proper
      have deeper : child.place further ≠ child.place rest := fun equal => proper (by rw [same, equal])
      rw [changeAt, at?, at?, child?_adjustChild_of_eq same, child?_of_naming_eq same, found]
      exact ih stands encloses deeper

/-- A removal changes the container of the value that it takes away. What stands at another position is as before, and
what encloses the container keeps its outline. Where reading finds nothing, the document stays as it is. -/
theorem removeAt_footprint (document : Json) : document.removeAt [] = document ∧ ∀ front last,
    (document.at? (front ++ [last]) = none → document.removeAt (front ++ [last]) = document) ∧
    ∀ part, document.at? (front ++ [last]) = some part →
      (∃ container rest, document.at? front = some container ∧
        (document.removeAt (front ++ [last])).at? front = some rest ∧ Loses last part container rest) ∧
      (∀ path, ¬ document.place front <+: document.place path → ¬ document.place path <+: document.place front →
        (document.removeAt (front ++ [last])).at? path = document.at? path) ∧
      ∀ path, document.place path <+: document.place front → document.place path ≠ document.place front →
        ∃ around changed, document.at? path = some around ∧
          (document.removeAt (front ++ [last])).at? path = some changed ∧ SameOutline around changed := by
  refine ⟨rfl, fun front last => ⟨fun absent => ?_, fun part present => ?_⟩⟩
  · rw [removeAt_concat]
    apply changeAt_eq_self
    intro container stands
    rw [at?_append, stands] at absent
    apply removeChild_of_absent
    rwa [Option.bind_some, at?, bind_at?_nil] at absent
  · rw [at?_append] at present
    obtain ⟨container, stands, found⟩ := Option.bind_eq_some_iff.mp present
    rw [at?, bind_at?_nil] at found
    rw [removeAt_concat]
    refine ⟨⟨container, container.removeChild last, stands, ?_, loses_removeChild found⟩, ?_, ?_⟩
    · rw [at?_changeAt, stands, Option.map_some]
    · exact fun path outside around => at?_changeAt_of_apart outside around
    · exact fun path encloses proper => exists_sameOutline_changeAt stands encloses proper _

def orders : Json :=
  .obj [("orders", .arr [
      .obj [("id", .str "a"), ("lines", .obj [("ink", .str "2"), ("pen", .str "1"), ("cap", .str "4")])],
      .obj [("id", .str "b")]]),
    ("notes", .arr [.str "n"])]

def firstLines : Path := [.key "orders", .key "0", .key "lines"]

/-- A line goes and the last one takes its place; the other order stays, and the order around keeps its keys. A line that
is not there cannot go. -/
theorem removeAt_footprint_orders :
    orders.at? (firstLines ++ [.key "lid"]) = none ∧ orders.removeAt (firstLines ++ [.key "lid"]) = orders ∧
    orders.at? (firstLines ++ [.key "ink"]) = some (.str "2") ∧
    (∃ container rest, orders.at? firstLines = some container ∧
      (orders.removeAt (firstLines ++ [.key "ink"])).at? firstLines = some rest ∧
      Loses (.key "ink") (.str "2") container rest) ∧
    (¬ orders.place firstLines <+: orders.place [.key "orders", .key "1"] ∧
      ¬ orders.place [.key "orders", .key "1"] <+: orders.place firstLines ∧
      (orders.removeAt (firstLines ++ [.key "ink"])).at? [.key "orders", .key "1"] =
        orders.at? [.key "orders", .key "1"]) ∧
    orders.place [.key "orders", .index 0] <+: orders.place firstLines ∧
    orders.place [.key "orders", .index 0] ≠ orders.place firstLines ∧
    ∃ around changed, orders.at? [.key "orders", .index 0] = some around ∧
      (orders.removeAt (firstLines ++ [.key "ink"])).at? [.key "orders", .index 0] = some changed ∧
      SameOutline around changed := by
  have missing : orders.at? (firstLines ++ [.key "lid"]) = none := rfl
  have present : orders.at? (firstLines ++ [.key "ink"]) = some (.str "2") := rfl
  have outside : ¬ orders.place firstLines <+: orders.place [.key "orders", .key "1"] := by decide
  have around : ¬ orders.place [.key "orders", .key "1"] <+: orders.place firstLines := by decide
  have encloses : orders.place [.key "orders", .index 0] <+: orders.place firstLines := by decide
  have proper : orders.place [.key "orders", .index 0] ≠ orders.place firstLines := by decide
  obtain ⟨kept, touched⟩ := (removeAt_footprint orders).2 firstLines (.key "lid")
  obtain ⟨_, lost⟩ := (removeAt_footprint orders).2 firstLines (.key "ink")
  obtain ⟨container, apart, enclosing⟩ := lost _ present
  exact ⟨missing, kept missing, present, container, ⟨outside, around, apart _ outside around⟩, encloses, proper,
    enclosing _ encloses proper⟩

end SchemaGuide.Json
