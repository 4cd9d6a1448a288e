import SchemaGuide.Schema.Navigation

/-!
Whether the value at a path may be taken out of a document. A required field, a tag that selects a variant and an
element that a bound needs must stay.
-/

namespace SchemaGuide

inductive Objection where
  | refused (refusal : Refusal)
  /-- The value would be one of no elements: an object stands where the schema has an array, and has the key. -/
  | uncounted
  deriving DecidableEq

namespace Schema

/-- How many elements stay in the array at `value` without the one at `last`; nothing when there is none to take. -/
def remaining? (value : Option Json) (last : Step) : Option Nat :=
  let length := ((value.bind Json.elements?).map List.length).getD 0
  match value.bind (·.child? last), length with
  | none, length => some length
  | some _, 0 => none
  | some _, rest + 1 => some rest

/-- What the node around a value says about its removal; `value` is the container as it is. -/
def removable (parent : Node) (value : Option Json) (last : Step) : Except (Option Category) Unit :=
  match parent with
  | .object header properties =>
    let key := last.text
    if header.discriminator.any (·.property = key) || parent.isReadOnly key then .error (some .discriminatorMissing)
    else if (properties.lookup key).any Node.isRequired then .error (some .requiredField)
    else .ok ()
  | .array _ _ minItems _ =>
    match remaining? value last with
    | none => .error none
    | some remaining =>
      match minItems.filter (0 ≤ ·) with
      | some bound => if remaining < bound then .error (some .arrayTooShort) else .ok ()
      | none => .ok ()
  | .map _ _ => .ok ()
  | .scalar _ _ => .error (some .invalidPath)

def checkRemoval (schema : Schema) (group : String) (document : Json) (path : Path) : Except Objection Unit :=
  match path.getLast? with
  | none => .error (.refused (.invalidPath group path))
  | some last => do
    let parentPath := path.dropLast
    let _ ← (schema.nodeAt group path (some document)).mapError .refused
    let declared ← (schema.nodeAt group parentPath (some document)).mapError .refused
    let value := document.at? parentPath
    (removable (schema.governing declared value) value last).mapError fun category =>
      match category with
      | some category => .refused ⟨group, path, category⟩
      | none => .uncounted

end Schema

end SchemaGuide
