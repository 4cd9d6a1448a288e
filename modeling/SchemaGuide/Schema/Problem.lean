import SchemaGuide.Decimal.Layout
import SchemaGuide.Path.Text

/-!
What can be wrong with a document, and why a path cannot be followed or an edit not be made. Causes are data; their
wording stands in one place.
-/

namespace SchemaGuide

inductive Category where
  | invalidPath
  | requiredField
  | unknownKey
  | arrayTooLong
  | arrayTooShort
  | discriminatorMissing
  | discriminatorInvalid
  | valueRequired
  | notAllowed
  | notNumber
  | belowMinimum
  | aboveMaximum
  | notBoolean
  | notString
  deriving DecidableEq

def Category.word : Category → String
  | invalidPath => "InvalidPath"
  | requiredField => "RequiredField"
  | unknownKey => "UnknownKey"
  | arrayTooLong => "ArrayTooLong"
  | arrayTooShort => "ArrayTooShort"
  | discriminatorMissing => "DiscriminatorMissing"
  | discriminatorInvalid => "DiscriminatorInvalidType"
  | valueRequired => "ValueRequired"
  | notAllowed => "NotAPossibleValue"
  | notNumber => "NotANumber"
  | belowMinimum => "NumberBelowMinimum"
  | aboveMaximum => "NumberAboveMaximum"
  | notBoolean => "NotABoolean"
  | notString => "NotAString"

inductive Cause where
  | missing (fields : List String)
  | unknownKey (key : String)
  | tooMany (bound : Int)
  | tooFew (bound : Int)
  | unknownTag (property tag : String)
  | empty
  | notAllowed (allowed : List String)
  | notNumber
  | below (bound : Float)
  | above (bound : Float)
  | notBoolean
  | notString
  deriving DecidableEq

namespace Cause

def category : Cause → Category
  | missing _ => .requiredField
  | unknownKey _ => .unknownKey
  | tooMany _ => .arrayTooLong
  | tooFew _ => .arrayTooShort
  | unknownTag .. => .discriminatorInvalid
  | empty => .valueRequired
  | notAllowed _ => .notAllowed
  | notNumber => .notNumber
  | below _ => .belowMinimum
  | above _ => .aboveMaximum
  | notBoolean => .notBoolean
  | notString => .notString

def message : Cause → String
  | missing [field] => "Required field '" ++ field ++ "' is not available"
  | missing fields => "Required fields " ++ String.intercalate "," fields ++ " are not available"
  | unknownKey key => "'" ++ key ++ "' is not a valid key"
  | tooMany bound => "Array cannot contain more than " ++ bound.repr ++ " elements"
  | tooFew bound => "Array must contain at least " ++ bound.repr ++ " elements"
  | unknownTag property tag => "'" ++ tag ++ "' is not a valid type for discriminator '" ++ property ++ "'"
  | empty => "Value cannot be empty"
  | notAllowed allowed => "Value must be one of: " ++ String.intercalate ", " allowed
  | notNumber => "Value is not a number"
  | below bound => "Value cannot be less than " ++ Decimal.Layout.plain.text bound
  | above bound => "Value cannot be greater than " ++ Decimal.Layout.plain.text bound
  | notBoolean => "Value is not a boolean"
  | notString => "Value is not a string"

end Cause

/-- A cause and the path of the value that has it. -/
structure Problem where
  path : Path
  cause : Cause
  deriving DecidableEq

namespace Problem

def here (cause : Cause) : Problem := ⟨[], cause⟩

def under (step : Step) (problem : Problem) : Problem := { problem with path := step :: problem.path }

def category (problem : Problem) : Category := problem.cause.category

def message (problem : Problem) : String := problem.cause.message

def display (problem : Problem) : String := problem.path.format ++ ": " ++ problem.message

def toJson (problem : Problem) : Json :=
  .obj [("path", problem.path.toJson), ("kind", .str problem.category.word), ("message", .str problem.message)]

end Problem

/-- Why a path of a definition leads nowhere, or why an edit at it is refused. -/
structure Refusal where
  group : String
  path : Path
  category : Category
  deriving DecidableEq

namespace Refusal

def invalidPath (group : String) (path : Path) : Refusal := ⟨group, path, .invalidPath⟩

def message (refusal : Refusal) : String :=
  refusal.category.word ++ " at " ++ refusal.path.format ++ " in '" ++ refusal.group ++ "'"

end Refusal

end SchemaGuide
