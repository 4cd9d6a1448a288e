import SchemaGuide.Decimal.Reading
import SchemaGuide.Schema.Basic
import SchemaGuide.Schema.Problem
import SchemaGuide.Text.Blank

/-!
All problems of a document, in one pass over its values. First the tags of a value lead to the node that rules it; then
objects report the problems of declared members, unknown keys and, at once, all missing fields; arrays their length and
their elements; maps their entries; scalars a missing, a forbidden and a misshapen value, in this order.
-/

namespace SchemaGuide

/-- The number that a value stands for; a text may stand for one too, but never for an infinite one. -/
def Json.asNumber? : Json → Option Float
  | .num number => some number.toFloat
  | .str text => (Decimal.Reading.float? (Text.trim text.toList)).filter Float.isFinite
  | _ => none

/-- No value at all. Zero is a value. -/
def Json.isEmpty : Json → Bool
  | .num _ => false
  | value => !value.isTruthy

namespace Scalar

/-- Bounds that are not there and bounds of zero do not bind. -/
def rangeProblems (minimum maximum : Option Float) (x : Float) : List Problem :=
  let low := match minimum.filter (· != 0.0) with
    | none => []
    | some bound => if x < bound then [Problem.here (.below bound)] else []
  let high := match maximum.filter (· != 0.0) with
    | none => []
    | some bound => if bound < x then [Problem.here (.above bound)] else []
  low ++ high

def shapeProblems (form : Scalar) (value : Json) : List Problem :=
  match form with
  | .string allowed _ =>
    let forbidden := match value.string? with
      | some text => !allowed.isEmpty && !allowed.contains text
      | none => !allowed.isEmpty
    (if forbidden then [Problem.here (.notAllowed allowed)] else []) ++
      if value.string?.isSome then [] else [Problem.here .notString]
  | .number minimum maximum _ =>
    match value.asNumber? with
    | none => [Problem.here .notNumber]
    | some x => rangeProblems minimum maximum x
  | .boolean _ => if value.bool?.isSome then [] else [Problem.here .notBoolean]
  | .unspecified _ => []

def problems (form : Scalar) (required : Bool) (value : Json) : List Problem :=
  if value.isEmpty then (if required then [Problem.here .empty] else []) else form.shapeProblems value

end Scalar

/-- The length of an array against its bounds; a negative bound is a defect of the schema and does not bind. -/
def lengthProblems (length : Nat) (minItems maxItems : Option Int) : List Problem :=
  let long := match maxItems.filter (0 ≤ ·) with
    | none => []
    | some bound => if bound < length then [Problem.here (.tooMany bound)] else []
  let short := match minItems.filter (0 ≤ ·) with
    | none => []
    | some bound => if length < bound then [Problem.here (.tooFew bound)] else []
  long ++ short

namespace Schema

/-- Tags are followed no further than this. -/
def greatestHops : Nat := 8

/-- The node whose body a value is held to, after at most `hops` tags; or why a tag leads nowhere. -/
def ruling (schema : Schema) (value : Json) : (hops : Nat) → Node → Except Cause Node
  | 0, node => .ok node
  | hops + 1, node =>
    match node.discriminator? with
    | none => .ok node
    | some d =>
      match value.tag? d.property with
      | none => .error (.missing [d.property])
      | some tag =>
        match schema.variant? d tag with
        | none => .error (.unknownTag d.property tag)
        | some variant => schema.ruling value hops variant

/-- A value waiting for its node. -/
abbrev Check := Node → List Problem

/-- A value against the body of one node, its members and elements waiting for theirs. -/
def bodyProblems (value : Json) (members : Entries Check) (elements : List Check) : Node → List Problem
  | .object _ properties =>
    let declared := properties.flatMap fun (key, child) =>
      match members.lookup key with
      | none => []
      | some check => (check child).map (.under (.key key))
    let unknown := (Entries.keys members).filter (!(Entries.keys properties).contains ·)
    let missing := (properties.filter fun (key, child) => child.isRequired && (members.lookup key).isNone).map Prod.fst
    declared ++ unknown.map (fun key => ⟨[.key key], .unknownKey key⟩) ++
      if missing.isEmpty then [] else [Problem.here (.missing missing)]
  | .array _ items minItems maxItems =>
    lengthProblems elements.length minItems maxItems ++
      elements.zipIdx.flatMap fun (check, position) => (check items).map (.under (.index position))
  | .map _ values => members.flatMap fun (key, check) => (check values).map (.under (.key key))
  | .scalar header form => form.problems header.required value

/-- Finds the node that rules a value, then holds the value to it. -/
def ruledProblems (schema : Schema) (value : Json) (members : Entries Check) (elements : List Check) : Check := fun node =>
  match schema.ruling value greatestHops node with
  | .error cause => [.here cause]
  | .ok rule => bodyProblems value members elements rule

mutual
/-- All problems of a value under a node, with paths from the value. -/
def problems (schema : Schema) : Json → Check
  | .obj members => schema.ruledProblems (.obj members) (schema.memberChecks members) []
  | .arr elements => schema.ruledProblems (.arr elements) [] (schema.elementChecks elements)
  | .null => schema.ruledProblems .null [] []
  | .bool value => schema.ruledProblems (.bool value) [] []
  | .num value => schema.ruledProblems (.num value) [] []
  | .str value => schema.ruledProblems (.str value) [] []

def memberChecks (schema : Schema) : List (String × Json) → List (String × Check)
  | [] => []
  | (key, value) :: rest => (key, schema.problems value) :: schema.memberChecks rest

def elementChecks (schema : Schema) : List Json → List Check
  | [] => []
  | value :: rest => schema.problems value :: schema.elementChecks rest
end

end Schema

end SchemaGuide
