import SchemaGuide.Json.Access

/-! The parts of a value, and what an edit of one part does to all of them. An edit at a step touches the part at that
step and no other; a step that leads nowhere changes nothing. -/

namespace SchemaGuide

namespace Json

/-- The members of an object; no other value has members. -/
def entries (value : Json) : Entries Json := value.members?.getD []

/-- The elements of an array; no other value has elements. -/
def items (value : Json) : List Json := value.elements?.getD []

theorem member?_eq_lookup (value : Json) (key : String) : value.member? key = value.entries.lookup key := by
  cases value <;> rfl

theorem mem_entries_of_member? {value part : Json} {key : String} (found : value.member? key = some part) :
    (key, part) ∈ value.entries :=
  Entries.mem_of_lookup (member?_eq_lookup value key ▸ found)

private theorem sizeOf_lt_of_mem_entries {value : Json} {entry : String × Json} (member : entry ∈ value.entries) :
    sizeOf entry.2 < sizeOf value := by
  cases value with
  | obj members =>
    have smaller := List.sizeOf_lt_of_mem (show entry ∈ members from member)
    have inside : sizeOf entry.2 < sizeOf entry := by
      cases entry
      simp only [Prod.mk.sizeOf_spec]
      omega
    simp only [obj.sizeOf_spec]
    omega
  | null | bool | num | str | arr => cases member

private theorem sizeOf_lt_of_mem_items {value item : Json} (member : item ∈ value.items) :
    sizeOf item < sizeOf value := by
  cases value with
  | arr elements =>
    have smaller := List.sizeOf_lt_of_mem (show item ∈ elements from member)
    simp only [arr.sizeOf_spec]
    omega
  | null | bool | num | str | obj => cases member

/-- A property of all values follows from its members and elements to the value around them. -/
theorem induction_on_parts {motive : Json → Prop}
    (step : ∀ value : Json, (∀ entry ∈ value.entries, motive entry.2) → (∀ item ∈ value.items, motive item) → motive value)
    (value : Json) : motive value := by
  apply step
  · intro entry member
    have smaller := sizeOf_lt_of_mem_entries member
    exact induction_on_parts step entry.2
  · intro item member
    have smaller := sizeOf_lt_of_mem_items member
    exact induction_on_parts step item
termination_by sizeOf value

/-- A value is well formed when its members have distinct keys and all of its parts are well formed. -/
theorem wellFormed_iff_parts {value : Json} :
    value.WellFormed ↔ Entries.Distinct value.entries ∧ (∀ entry ∈ value.entries, entry.2.WellFormed) ∧
      ∀ item ∈ value.items, item.WellFormed := by
  cases value with
  | obj members => simp [WellFormed, membersWellFormed_iff, entries, items, members?, elements?]
  | arr elements =>
    have all : AllWellFormed elements ↔ ∀ item ∈ elements, item.WellFormed := by
      induction elements with
      | nil => simp [AllWellFormed]
      | cons element rest ih => simp [AllWellFormed, ih]
    simp [WellFormed, all, entries, items, members?, elements?, Entries.Distinct, Entries.keys]
  | null | bool | num | str => simp [WellFormed, entries, items, members?, elements?, Entries.Distinct, Entries.keys]

theorem WellFormed.distinct {value : Json} (wellFormed : value.WellFormed) : Entries.Distinct value.entries :=
  (wellFormed_iff_parts.mp wellFormed).1

theorem WellFormed.entry {value : Json} (wellFormed : value.WellFormed) {entry : String × Json}
    (member : entry ∈ value.entries) : entry.2.WellFormed :=
  (wellFormed_iff_parts.mp wellFormed).2.1 entry member

theorem WellFormed.item {value item : Json} (wellFormed : value.WellFormed) (member : item ∈ value.items) :
    item.WellFormed :=
  (wellFormed_iff_parts.mp wellFormed).2.2 item member

/-- A child is a member under the text of its step, or an element at its position. -/
theorem child?_cases {value part : Json} {step : Step} (found : value.child? step = some part) :
    (value.member? step.text = some part ∧ value.items = []) ∨
      (value.entries = [] ∧ ∃ position, step.position? = some position ∧ value.items[position]? = some part) := by
  cases value with
  | obj members => exact .inl ⟨found, rfl⟩
  | arr elements =>
    obtain ⟨position, place, found⟩ := Option.bind_eq_some_iff.mp found
    exact .inr ⟨rfl, position, place, found⟩
  | null | bool | num | str => cases found

theorem child?_of_member? {value part : Json} {key : String} (found : value.member? key = some part) :
    value.child? (.key key) = some part := by
  cases value with
  | obj members => exact found
  | null | bool | num | str | arr => cases found

theorem child?_of_item {value part : Json} {position : Nat} (found : value.items[position]? = some part) :
    value.child? (.index position) = some part := by
  cases value with
  | arr elements => exact found
  | null | bool | num | str | obj => cases found

theorem WellFormed.child {value part : Json} (wellFormed : value.WellFormed) {step : Step}
    (found : value.child? step = some part) : part.WellFormed := by
  rcases child?_cases found with ⟨member, _⟩ | ⟨_, position, _, element⟩
  · exact wellFormed.entry (mem_entries_of_member? member)
  · exact wellFormed.item (List.mem_of_getElem? element)

theorem WellFormed.at? {value part : Json} (wellFormed : value.WellFormed) {path : Path}
    (found : value.at? path = some part) : part.WellFormed := by
  induction path generalizing value with
  | nil =>
    cases found
    exact wellFormed
  | cons step rest ih =>
    obtain ⟨child, here, found⟩ := Option.bind_eq_some_iff.mp found
    exact ih (wellFormed.child here) found

theorem removeChild_of_absent {value : Json} {step : Step} (absent : value.child? step = none) :
    value.removeChild step = value := by
  cases value with
  | obj members => exact congrArg obj (Entries.swapErase_of_notMem absent)
  | arr elements =>
    simp only [removeChild, child?] at absent ⊢
    cases place : step.position? with
    | none => rfl
    | some position =>
      simp only [place, Option.bind_some, List.getElem?_eq_none_iff] at absent
      simp only [Option.map_some, Option.getD_some, List.eraseIdx_of_length_le absent]
  | null | bool | num | str => rfl

theorem adjustChild_eq_self {value : Json} {step : Step} {change : Json → Json}
    (fixed : ∀ part, value.child? step = some part → change part = part) : value.adjustChild step change = value := by
  cases value with
  | obj members => exact congrArg obj (Entries.adjust_eq_self fixed)
  | arr elements =>
    unfold adjustChild
    cases place : step.position? with
    | none => rfl
    | some position =>
      refine congrArg arr (List.ext_getElem? fun other => ?_)
      simp only [Option.map_some, Option.getD_some, List.getElem?_modify]
      split
      next same =>
        subst same
        cases found : elements[position]? with
        | none => rfl
        | some part => exact congrArg some (fixed part (by simp only [child?, place, Option.bind_some, found]))
      · exact Option.map_id'
  | null | bool | num | str => rfl

theorem adjustChild_of_absent {value : Json} {step : Step} (absent : value.child? step = none) (change : Json → Json) :
    value.adjustChild step change = value := by
  apply adjustChild_eq_self
  intro part found
  cases absent.symm.trans found

theorem adjustChild_adjustChild (value : Json) (step : Step) (first second : Json → Json) :
    (value.adjustChild step first).adjustChild step second = value.adjustChild step (second ∘ first) := by
  cases value with
  | obj members => exact congrArg obj (Entries.adjust_adjust step.text first second members)
  | arr elements =>
    unfold adjustChild
    cases step.position? with
    | none => rfl
    | some position => exact congrArg arr (List.modify_modify_eq first second position elements)
  | null | bool | num | str => rfl

theorem mem_entries_removeChild {value : Json} {step : Step} {entry : String × Json}
    (member : entry ∈ (value.removeChild step).entries) : entry ∈ value.entries := by
  cases value with
  | obj members => exact Entries.mem_swapErase member
  | null | bool | num | str | arr => exact member

theorem mem_items_removeChild {value item : Json} {step : Step} (member : item ∈ (value.removeChild step).items) :
    item ∈ value.items := by
  cases value with
  | arr elements =>
    simp only [removeChild, items, elements?, Option.getD_some] at member
    cases place : step.position? with
    | none =>
      rw [place] at member
      exact member
    | some position =>
      rw [place] at member
      exact List.mem_of_mem_eraseIdx member
  | null | bool | num | str | obj => exact member

theorem length_items_removeChild (value : Json) (step : Step) :
    (value.removeChild step).items.length =
      if (value.child? step).isSome then value.items.length - 1 else value.items.length := by
  cases found : value.child? step with
  | none => rw [removeChild_of_absent found]; rfl
  | some part =>
    rcases child?_cases found with ⟨_, empty⟩ | ⟨_, position, place, element⟩
    · have still : (value.removeChild step).items = [] := by
        refine List.eq_nil_iff_forall_not_mem.mpr fun item member => ?_
        have old := mem_items_removeChild member
        rw [empty] at old
        cases old
      rw [still, empty]
      rfl
    · have inside := (List.getElem?_eq_some_iff.mp element).1
      cases value with
      | arr elements =>
        simp only [removeChild, place, Option.map_some, Option.getD_some]
        exact List.length_eraseIdx_of_lt inside
      | null | bool | num | str | obj => cases inside

theorem WellFormed.member?_removeChild {value : Json} (wellFormed : value.WellFormed) (step : Step) (key : String) :
    (value.removeChild step).member? key = if key = step.text then none else value.member? key := by
  cases value with
  | obj members => exact wellFormed.distinct.lookup_swapErase step.text key
  | null | bool | num | str | arr => exact (ite_self none).symm

theorem WellFormed.removeChild {value : Json} (wellFormed : value.WellFormed) (step : Step) :
    (value.removeChild step).WellFormed := by
  refine wellFormed_iff_parts.mpr ⟨?_, fun entry member => wellFormed.entry (mem_entries_removeChild member),
    fun item member => wellFormed.item (mem_items_removeChild member)⟩
  cases value with
  | obj members => exact wellFormed.distinct.swapErase step.text
  | null | bool | num | str | arr => exact List.nodup_nil

theorem member?_adjustChild (value : Json) (step : Step) (change : Json → Json) (key : String) :
    (value.adjustChild step change).member? key =
      if key = step.text then (value.member? key).map change else value.member? key := by
  cases value with
  | obj members => exact Entries.lookup_adjust step.text key change members
  | null | bool | num | str | arr => exact (ite_self none).symm

theorem keys_adjustChild (value : Json) (step : Step) (change : Json → Json) :
    Entries.keys (value.adjustChild step change).entries = Entries.keys value.entries := by
  cases value with
  | obj members => exact Entries.keys_adjust step.text change members
  | null | bool | num | str | arr => rfl

theorem mem_entries_adjustChild {value : Json} {step : Step} {change : Json → Json} {entry : String × Json}
    (member : entry ∈ (value.adjustChild step change).entries) :
    entry ∈ value.entries ∨ ∃ part, value.child? step = some part ∧ (step.text, part) ∈ value.entries ∧
      entry = (step.text, change part) := by
  cases value with
  | obj members =>
    rcases Entries.mem_adjust member with old | ⟨part, found, rfl⟩
    · exact .inl old
    · exact .inr ⟨part, found, Entries.mem_of_lookup found, rfl⟩
  | null | bool | num | str | arr => exact .inl member

theorem length_items_adjustChild (value : Json) (step : Step) (change : Json → Json) :
    (value.adjustChild step change).items.length = value.items.length := by
  cases value with
  | arr elements =>
    simp only [adjustChild, items, elements?, Option.getD_some]
    cases step.position? <;> simp
  | null | bool | num | str | obj => rfl

theorem mem_items_adjustChild {value item : Json} {step : Step} {change : Json → Json}
    (member : item ∈ (value.adjustChild step change).items) :
    item ∈ value.items ∨ ∃ part, value.child? step = some part ∧ part ∈ value.items ∧ item = change part := by
  cases value with
  | arr elements =>
    simp only [adjustChild, items, elements?, Option.getD_some] at member ⊢
    cases place : step.position? with
    | none => exact .inl (by simpa [place] using member)
    | some position =>
      simp only [place, Option.map_some, Option.getD_some] at member
      obtain ⟨other, found⟩ := List.mem_iff_getElem?.mp member
      by_cases same : position = other
      · subst same
        rw [List.getElem?_modify_eq] at found
        obtain ⟨part, element, rfl⟩ := Option.map_eq_some_iff.mp found
        exact .inr ⟨part, by simp [child?, place, element], List.mem_of_getElem? element, rfl⟩
      · rw [List.getElem?_modify_ne change elements same] at found
        exact .inl (List.mem_of_getElem? found)
  | null | bool | num | str | obj => exact .inl member

theorem WellFormed.adjustChild {value : Json} (wellFormed : value.WellFormed) {step : Step} {change : Json → Json}
    (kept : ∀ part, value.child? step = some part → (change part).WellFormed) :
    (value.adjustChild step change).WellFormed := by
  refine wellFormed_iff_parts.mpr ⟨?_, fun entry member => ?_, fun item member => ?_⟩
  · unfold Entries.Distinct
    rw [keys_adjustChild]
    exact wellFormed.distinct
  · rcases mem_entries_adjustChild member with old | ⟨part, found, _, rfl⟩
    · exact wellFormed.entry old
    · exact kept part found
  · rcases mem_items_adjustChild member with old | ⟨part, found, _, rfl⟩
    · exact wellFormed.item old
    · exact kept part found

/-- The value with the part at a path changed; a path that leads nowhere changes nothing. -/
def changeAt (value : Json) (path : Path) (change : Json → Json) : Json :=
  match path with
  | [] => change value
  | step :: rest => value.adjustChild step (·.changeAt rest change)

theorem changeAt_eq_self {value : Json} {path : Path} {change : Json → Json}
    (fixed : ∀ part, value.at? path = some part → change part = part) : value.changeAt path change = value := by
  induction path generalizing value with
  | nil => exact fixed value rfl
  | cons step rest ih =>
    apply adjustChild_eq_self
    intro part found
    apply ih
    intro deeper reached
    apply fixed
    rw [at?, found]
    exact reached

theorem changeAt_changeAt (value : Json) (path : Path) (first second : Json → Json) :
    (value.changeAt path first).changeAt path second = value.changeAt path (second ∘ first) := by
  induction path generalizing value with
  | nil => rfl
  | cons step rest ih =>
    have deeper : (fun part : Json => part.changeAt rest second) ∘ (fun part : Json => part.changeAt rest first) =
        fun part => part.changeAt rest (second ∘ first) := funext ih
    rw [changeAt, changeAt, adjustChild_adjustChild, deeper, changeAt]

theorem child?_adjustChild (value : Json) (step : Step) (change : Json → Json) :
    (value.adjustChild step change).child? step = (value.child? step).map change := by
  cases value with
  | obj members =>
    have here := Entries.lookup_adjust step.text step.text change members
    rwa [if_pos rfl] at here
  | arr elements =>
    simp only [adjustChild, child?]
    cases step.position? with
    | none => rfl
    | some position => exact List.getElem?_modify_eq change position elements
  | null | bool | num | str => rfl

theorem at?_changeAt (value : Json) (path : Path) (change : Json → Json) :
    (value.changeAt path change).at? path = (value.at? path).map change := by
  induction path generalizing value with
  | nil => rfl
  | cons step rest ih =>
    rw [changeAt, at?, child?_adjustChild, at?]
    cases value.child? step with
    | none => rfl
    | some part => exact ih part

theorem removeAt_concat (value : Json) (path : Path) (last : Step) :
    value.removeAt (path ++ [last]) = value.changeAt path (·.removeChild last) := by
  induction path generalizing value with
  | nil => rfl
  | cons step rest ih =>
    have deeper : (fun part : Json => part.removeAt (rest ++ [last])) =
        fun part => part.changeAt rest (·.removeChild last) := funext ih
    rw [changeAt, ← deeper]
    cases rest with
    | nil => rfl
    | cons next rest => rfl

theorem WellFormed.removeAt {value : Json} (wellFormed : value.WellFormed) (path : Path) :
    (value.removeAt path).WellFormed := by
  match path with
  | [] => exact wellFormed
  | [last] => exact wellFormed.removeChild last
  | step :: next :: rest =>
    exact wellFormed.adjustChild fun part found => WellFormed.removeAt (wellFormed.child found) (next :: rest)

end Json

end SchemaGuide
