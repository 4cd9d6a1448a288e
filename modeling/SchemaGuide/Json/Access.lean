import SchemaGuide.Json.Printer
import SchemaGuide.Path.Basic

/-!
Looking into documents: the value at a path, the document without it, and the tag that an object carries.
-/

namespace SchemaGuide.Json

def child? (value : Json) (step : Step) : Option Json :=
  match value with
  | .obj members => members.lookup step.text
  | .arr elements => step.position?.bind (elements[·]?)
  | _ => none

def at? (value : Json) : Path → Option Json
  | [] => some value
  | step :: rest => (value.child? step).bind (·.at? rest)

theorem bind_at?_nil (given : Option Json) : given.bind (·.at? []) = given := by cases given <;> rfl

theorem bind_at?_cons (given : Option Json) (step : Step) (rest : Path) :
    given.bind (·.at? (step :: rest)) = (given.bind (·.child? step)).bind (·.at? rest) := by
  cases given <;> rfl

theorem at?_append (value : Json) (first rest : Path) : value.at? (first ++ rest) = (value.at? first).bind (·.at? rest) := by
  induction first generalizing value with
  | nil => rfl
  | cons step first ih =>
    rw [List.cons_append, at?, at?]
    cases value.child? step with
    | none => rfl
    | some part => exact ih part

/-- The container without its child. In an object the last member takes the place of the one that goes. -/
def removeChild (value : Json) (step : Step) : Json :=
  match value with
  | .obj members => .obj (Entries.swapErase step.text members)
  | .arr elements => .arr ((step.position?.map elements.eraseIdx).getD elements)
  | other => other

def adjustChild (value : Json) (step : Step) (change : Json → Json) : Json :=
  match value with
  | .obj members => .obj (Entries.adjust step.text change members)
  | .arr elements => .arr ((step.position?.map (elements.modify · change)).getD elements)
  | other => other

/-- The document without the value at a path. Neither the whole document nor an absent value can be taken away. -/
def removeAt (value : Json) : Path → Json
  | [] => value
  | [last] => value.removeChild last
  | step :: next :: rest => value.adjustChild step (·.removeAt (next :: rest))

/-- Whether a value counts as given: null, false, the empty string and zero do not. -/
def isTruthy : Json → Bool
  | .null => false
  | .bool value => value
  | .num value => value.toFloat != 0.0
  | .str value => !value.isEmpty
  | .arr _ => true
  | .obj _ => true

/-- A tag is read from any value that counts as given: strings as they are, all else by its text. -/
def asTag? (value : Json) : Option String :=
  if value.isTruthy then
    match value with
    | .str text => some text
    | other => some other.compact
  else none

/-- The tag that an object carries under `property`. -/
def tag? (value : Json) (property : String) : Option String :=
  (value.member? property).bind asTag?

/-- The keys in use at a value; an array uses its positions. -/
def usedKeys : Json → List String
  | .obj members => Entries.keys members
  | .arr elements => (List.range elements.length).map Nat.repr
  | _ => []

end SchemaGuide.Json
