import SchemaGuide.Settings.Setting

/-!
Settings from environment variables. A variable counts when its name starts with the mark, in either case; double
underscores in the rest of the name lead from section to key, and a value that reads as one is a boolean or a number.
-/

namespace SchemaGuide.Settings

def variableMark : String := "schema_nav__"

def pointed : List Char → List Char
  | '_' :: '_' :: rest => '.' :: pointed rest
  | c :: rest => c :: pointed rest
  | [] => []

def variableValue (text : String) : Setting :=
  if text.toLower = "true" then .bool true
  else if text.toLower = "false" then .bool false
  else match Decimal.Reading.int? text.toList, Decimal.Reading.float? text.toList with
    | some value, _ => .int value
    | none, some value => .float value
    | none, none => .text text

def ofVariable? (name text : String) : Option (String × Setting) :=
  let lower := name.toLower.toList
  let mark := variableMark.toList
  if mark.isPrefixOf lower then some (String.ofList (pointed (lower.drop mark.length)), variableValue text) else none

def ofVariables (environment : Entries String) : Entries Setting :=
  environment.filterMap fun (name, text) => ofVariable? name text

end SchemaGuide.Settings
