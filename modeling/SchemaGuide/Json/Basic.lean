import SchemaGuide.Entries
import SchemaGuide.Json.Number

/-!
JSON values. Objects keep the order of their members. A value is well formed when no object in it has a key twice;
every value that is read from text is.
-/

namespace SchemaGuide

inductive Json where
  | null
  | bool (value : Bool)
  | num (value : Number)
  | str (value : String)
  | arr (elements : List Json)
  | obj (members : List (String × Json))
  deriving Inhabited

namespace Json

def ofInt (value : Int) : Json := .num (.int value)

def ofNat (value : Nat) : Json := ofInt value

def strings (values : List String) : Json := .arr (values.map .str)

def ofOption {α : Type} (encode : α → Json) : Option α → Json
  | none => .null
  | some value => encode value

def string? : Json → Option String
  | .str value => some value
  | _ => none

def bool? : Json → Option Bool
  | .bool value => some value
  | _ => none

def int? : Json → Option Int
  | .num (.int value) => some value
  | _ => none

def elements? : Json → Option (List Json)
  | .arr elements => some elements
  | _ => none

def members? : Json → Option (Entries Json)
  | .obj members => some members
  | _ => none

/-- The value of a member; only objects have members. -/
def member? (value : Json) (key : String) : Option Json :=
  value.members?.bind (·.lookup key)

mutual
/-- No object in the value has a member twice; members are a map from names to values. -/
def WellFormed : Json → Prop
  | .arr elements => AllWellFormed elements
  | .obj members => Entries.Distinct members ∧ MembersWellFormed members
  | _ => True

def AllWellFormed : List Json → Prop
  | [] => True
  | element :: rest => element.WellFormed ∧ AllWellFormed rest

def MembersWellFormed : List (String × Json) → Prop
  | [] => True
  | (_, value) :: rest => value.WellFormed ∧ MembersWellFormed rest
end

theorem membersWellFormed_iff {members : List (String × Json)} :
    MembersWellFormed members ↔ ∀ entry ∈ members, entry.2.WellFormed := by
  induction members with
  | nil => simp [MembersWellFormed]
  | cons entry rest ih => simp [MembersWellFormed, ih]

end Json

end SchemaGuide
