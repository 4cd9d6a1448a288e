import SchemaGuide.Json.Basic

/-!
JSON as it is written, before repeated keys are merged. A part that fits the grammar but stands for no value is kept
as `unreadable`: a number beyond every double, a string with half a surrogate pair, an array or object below the
greatest depth. Whoever skips such a part never notices it.
-/

namespace SchemaGuide

/-- A key that cannot be read is `none`. -/
inductive Written where
  | unreadable
  | null
  | bool (value : Bool)
  | num (value : Number)
  | str (value : String)
  | arr (elements : List Written)
  | obj (members : List (Option String × Written))
  deriving Inhabited

namespace Written

mutual
/-- The value that is written, if every part of it can be read. A repeated key keeps its first place and takes its
last value. -/
def value? : Written → Option Json
  | .unreadable => none
  | .null => some .null
  | .bool value => some (.bool value)
  | .num value => some (.num value)
  | .str value => some (.str value)
  | .arr elements => (values? elements).map .arr
  | .obj members => (entries? members).map fun pairs => .obj (Entries.collect pairs)

def values? : List Written → Option (List Json)
  | [] => some []
  | element :: rest => do
    let value ← element.value?
    let others ← values? rest
    some (value :: others)

def entries? : List (Option String × Written) → Option (List (String × Json))
  | [] => some []
  | (key, written) :: rest => do
    let key ← key
    let value ← written.value?
    let others ← entries? rest
    some ((key, value) :: others)
end

mutual
theorem wellFormed_of_value? {written : Written} {value : Json} (read : written.value? = some value) :
    value.WellFormed := by
  cases written with
  | arr elements =>
    obtain ⟨values, all, rfl⟩ := Option.map_eq_some_iff.1 read
    exact allWellFormed_of_values? all
  | obj members =>
    obtain ⟨pairs, all, rfl⟩ := Option.map_eq_some_iff.1 read
    refine ⟨Entries.distinct_collect pairs, Json.membersWellFormed_iff.2 fun entry member => ?_⟩
    exact Json.membersWellFormed_iff.1 (membersWellFormed_of_entries? all) entry (Entries.mem_collect member)
  | unreadable => simp [value?] at read
  | null | bool | num | str =>
    obtain rfl := Option.some.inj read
    trivial

theorem allWellFormed_of_values? {elements : List Written} {values : List Json} (read : values? elements = some values) :
    Json.AllWellFormed values := by
  cases elements with
  | nil =>
    obtain rfl := Option.some.inj read
    trivial
  | cons element rest =>
    obtain ⟨value, first, read⟩ := Option.bind_eq_some_iff.1 read
    obtain ⟨others, all, same⟩ := Option.bind_eq_some_iff.1 read
    obtain rfl := Option.some.inj same
    exact ⟨wellFormed_of_value? first, allWellFormed_of_values? all⟩

theorem membersWellFormed_of_entries? {members : List (Option String × Written)} {pairs : List (String × Json)}
    (read : entries? members = some pairs) : Json.MembersWellFormed pairs := by
  match members with
  | [] =>
    obtain rfl := Option.some.inj read
    trivial
  | (key, written) :: rest =>
    obtain ⟨key, _, read⟩ := Option.bind_eq_some_iff.1 read
    obtain ⟨value, first, read⟩ := Option.bind_eq_some_iff.1 read
    obtain ⟨others, all, same⟩ := Option.bind_eq_some_iff.1 read
    obtain rfl := Option.some.inj same
    exact ⟨wellFormed_of_value? first, membersWellFormed_of_entries? all⟩
end

mutual
def ofJson : Json → Written
  | .null => .null
  | .bool value => .bool value
  | .num value => .num value
  | .str value => .str value
  | .arr elements => .arr (ofElements elements)
  | .obj members => .obj (ofMembers members)

def ofElements : List Json → List Written
  | [] => []
  | element :: rest => ofJson element :: ofElements rest

def ofMembers : List (String × Json) → List (Option String × Written)
  | [] => []
  | (key, value) :: rest => (some key, ofJson value) :: ofMembers rest
end

mutual
/-- A value that is written reads back as it is. -/
theorem value?_ofJson {value : Json} (wellFormed : value.WellFormed) : (ofJson value).value? = some value := by
  cases value with
  | arr elements => rw [ofJson, value?, values?_ofElements wellFormed, Option.map_some]
  | obj members =>
    obtain ⟨distinct, parts⟩ := wellFormed
    rw [ofJson, value?, entries?_ofMembers parts, Option.map_some, Entries.collect_eq_self distinct]
  | null | bool | num | str => rfl

theorem values?_ofElements {elements : List Json} (wellFormed : Json.AllWellFormed elements) :
    values? (ofElements elements) = some elements := by
  cases elements with
  | nil => rfl
  | cons element rest =>
    obtain ⟨first, others⟩ := wellFormed
    rw [ofElements, values?, value?_ofJson first, values?_ofElements others]
    rfl

theorem entries?_ofMembers {members : List (String × Json)} (wellFormed : Json.MembersWellFormed members) :
    entries? (ofMembers members) = some members := by
  match members with
  | [] => rfl
  | (key, value) :: rest =>
    obtain ⟨first, others⟩ := wellFormed
    rw [ofMembers, entries?, value?_ofJson first, entries?_ofMembers others]
    rfl
end

end Written

end SchemaGuide
