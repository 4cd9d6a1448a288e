import SchemaGuide.Decimal.Reading
import SchemaGuide.Schema.Failure
import SchemaGuide.Settings.Setting
import SchemaGuide.Text.Radix

/-!
Nodes of YAML, and what a scalar without quotes stands for. A table may have any node as a key while it is read, and no
key twice; as settings only texts and whole numbers may be keys.
-/

namespace SchemaGuide.Yaml

inductive Node where
  | null
  | bool (value : Bool)
  | int (value : Int)
  | real (written : String)
  | text (value : String)
  | list (elements : List Node)
  | table (entries : List (Node × Node))

namespace Node

mutual
def same : Node → Node → Bool
  | null, null => true
  | bool first, bool second => first = second
  | int first, int second => first = second
  | real first, real second => first = second
  | text first, text second => first = second
  | list first, list second => sameElements first second
  | table first, table second => sameEntries first second
  | _, _ => false

def sameElements : List Node → List Node → Bool
  | [], [] => true
  | first :: others, second :: rest => same first second && sameElements others rest
  | _, _ => false

def sameEntries : List (Node × Node) → List (Node × Node) → Bool
  | [], [] => true
  | (key, value) :: others, (other, element) :: rest =>
    same key other && same value element && sameEntries others rest
  | _, _ => false
end

def add? (key value : Node) (entries : List (Node × Node)) : Option (List (Node × Node)) :=
  if entries.any fun (known, _) => same known key then none else some (entries ++ [(key, value)])

def inBase? (base : Nat) (text : List Char) : Option Int :=
  let (negative, digits) := Decimal.Reading.signed text
  ((Numeral.inBase? base digits).map fun size => if negative then -(Int.ofNat size) else Int.ofNat size).filter
    Numeral.isSignedWord

/-- A whole number: base sixteen and base eight have their marks, and a plus sign may stand in front of any other. -/
def int? (text : List Char) : Option Int :=
  let marked := match text with
    | '0' :: 'x' :: digits => inBase? 16 digits
    | '0' :: 'o' :: digits => inBase? 8 digits
    | '+' :: digits => Decimal.Reading.int? digits
    | _ => none
  marked.or (Decimal.Reading.int? text)

/-- Words for infinity and for no number. They are numbers, but no setting can hold one. -/
def pointWords : List String :=
  [".inf", ".Inf", ".INF", "+.inf", "+.Inf", "+.INF", "-.inf", "-.Inf", "-.INF", ".nan", ".NaN", ".NAN"]

def isReal (text : List Char) : Bool :=
  pointWords.contains (String.ofList text) || (text.any Char.isDigit && (Decimal.Reading.float? text).isSome)

/-- What a scalar without quotes and without a tag stands for. -/
def ofPlain (text : List Char) : Node :=
  let word := String.ofList text
  match int? text with
  | some value => .int value
  | none =>
    if ["", "~", "null"].contains word then .null
    else if word = "true" then .bool true
    else if word = "false" then .bool false
    else if isReal text then .real word
    else .text word

/-- What a scalar without quotes stands for under a tag. What does not fit a standard tag is null, and with any other
tag a scalar is a text. -/
def ofTagged (tag : Option String) (text : List Char) : Node :=
  match tag with
  | none => ofPlain text
  | some "bool" =>
    if text = "true".toList then .bool true else if text = "false".toList then .bool false else .null
  | some "int" => ((Decimal.Reading.int? text).map .int).getD .null
  | some "float" => if isReal text then .real (String.ofList text) else .null
  | some "null" => .null
  | some _ => .text (String.ofList text)

def omitted (tag : Option String) : Node := ofTagged tag ['~']

def key : Node → Except Failure String
  | text value => .ok value
  | int value => .ok value.repr
  | _ => .error .fault

mutual
def setting : Node → Except Failure Setting
  | null => .ok .null
  | bool value => .ok (.bool value)
  | int value => .ok (.int value)
  | real written =>
    match Decimal.Reading.float? written.toList with
    | none => .error .settings
    | some value => .ok (.float value)
  | text value => .ok (.text value)
  | list elements => (elementSettings elements).map .list
  | table entries => (entrySettings [] entries).map .table

def elementSettings : List Node → Except Failure (List Setting)
  | [] => .ok []
  | element :: rest => do
    let element ← setting element
    return element :: (← elementSettings rest)

def entrySettings (known : Entries Setting) : List (Node × Node) → Except Failure (Entries Setting)
  | [] => .ok known
  | (name, value) :: rest => do
    let name ← name.key
    entrySettings (Entries.put name (← setting value) known) rest
end

end Node

end SchemaGuide.Yaml
