/-!
The arguments of the program. Options of the program stand before the name of a command and options of a command after
it. No option is given twice, and after a double dash every argument is a plain one.
-/

namespace SchemaGuide.CommandLine

inductive Command where
  | validate (document : String)
  | resolve (path : String) (document : Option String)
  | insertKeys (path document : String) (templates : Bool)
  | suggest (path : String) (document : Option String)
  | remove (path document : String)
  | diagnostics

structure Invocation where
  settings : Option String
  schema : Option String
  root : Option String
  strict : Bool
  command : Command

inductive Refused where
  | help
  | misused
  deriving DecidableEq

structure Switch where
  letter : Option Char
  word : String
  takesValue : Bool
  /-- The value names a file and may not be empty. -/
  isFile : Bool

namespace Switch

def settings : Switch := ⟨some 'c', "config", true, true⟩
def schema : Switch := ⟨some 's', "schema", true, true⟩
def root : Switch := ⟨some 'r', "root", true, false⟩
def strict : Switch := ⟨none, "strict", false, false⟩
def document : Switch := ⟨some 'd', "document", true, true⟩
def templates : Switch := ⟨none, "templates", false, false⟩

end Switch

/-- What a command line may hold up to its end, or up to the name of a command. -/
structure Form where
  switches : List Switch
  places : Nat
  /-- Plain arguments name files. -/
  namesFiles : Bool
  /-- The first plain argument is the name of a command, and ends the form. -/
  stops : Bool

/-- What has been read: the options by their words, and the plain arguments in order. -/
structure Given where
  options : List (String × String)
  plain : List String

namespace Given

def none : Given := ⟨[], []⟩

def value? (given : Given) (switch : Switch) : Option String := given.options.lookup switch.word

def has (given : Given) (switch : Switch) : Bool := (given.value? switch).isSome

def add? (given : Given) (switch : Switch) (value : String) : Except Refused Given :=
  if given.has switch || (switch.isFile && value.isEmpty) then .error .misused
  else .ok { given with options := (switch.word, value) :: given.options }

def addPlain? (form : Form) (given : Given) (value : String) : Except Refused Given :=
  if form.places ≤ given.plain.length || (form.namesFiles && value.isEmpty) then .error .misused
  else .ok { given with plain := given.plain ++ [value] }

end Given

inductive Argument where
  | plain
  | refused (reason : Refused)
  | complete (switch : Switch) (value : String)
  | open (switch : Switch)

namespace Argument

/-- An option by its word, with a value after an equals sign. -/
def ofWord (switches : List Switch) (text : List Char) : Argument :=
  let word := String.ofList (text.takeWhile (· ≠ '='))
  let value := match text.dropWhile (· ≠ '=') with
    | [] => none
    | _ :: rest => some (String.ofList rest)
  match switches.find? (·.word = word), value with
  | some switch, some value => if switch.takesValue then complete switch value else refused .misused
  | some switch, none => if switch.takesValue then .open switch else complete switch ""
  | none, none => refused (if word = "help" then .help else .misused)
  | none, some _ => refused .misused

/-- An option by its letter, with the value right after it or after an equals sign. -/
def ofLetter (switches : List Switch) (letter : Char) (rest : List Char) : Argument :=
  match switches.find? (·.letter = some letter), rest with
  | some switch, [] => .open switch
  | some switch, '=' :: value => complete switch (String.ofList value)
  | some switch, value => complete switch (String.ofList value)
  | none, _ => refused (if letter = 'h' then .help else .misused)

def ofText (switches : List Switch) (text : String) : Argument :=
  match text.toList with
  | '-' :: '-' :: word => ofWord switches word
  | '-' :: letter :: rest => ofLetter switches letter rest
  | _ => plain

/-- Only a plain argument may be the value of an option. -/
def isValue (text : String) : Bool :=
  match text.toList with
  | '-' :: _ :: _ => false
  | _ => true

end Argument

/-- Reads arguments by a form; what is left over starts with the name of a command. -/
def read? (form : Form) : List String → Given → Except Refused (Given × List String)
  | [], given => .ok (given, [])
  | "--" :: rest, given => do
    if form.stops then .error .misused
    return (← rest.foldlM (Given.addPlain? form) given, [])
  | text :: rest, given =>
    match Argument.ofText form.switches text with
    | .plain => if form.stops then .ok (given, text :: rest) else do read? form rest (← given.addPlain? form text)
    | .refused reason => .error reason
    | .complete switch value => do read? form rest (← given.add? switch value)
    | .open switch =>
      match rest with
      | [] => .error .misused
      | value :: rest => if Argument.isValue value then do read? form rest (← given.add? switch value) else .error .misused

def programForm : Form := ⟨[.settings, .schema, .root, .strict], 0, false, true⟩

def orMisused {α : Type} : Option α → Except Refused α
  | some value => .ok value
  | none => .error .misused

/-- Reads all that follows the name of a command. -/
def given? (switches : List Switch) (places : Nat) (namesFiles : Bool) (arguments : List String) : Except Refused Given := do
  return (← read? ⟨switches, places, namesFiles, false⟩ arguments .none).1

def commandNames : List String := ["validate", "resolve", "insert-keys", "suggest", "remove", "diagnostics"]

def command? (name : String) (arguments : List String) : Except Refused Command :=
  match name with
  | "validate" => do
    let given ← given? [] 1 true arguments
    return .validate (← orMisused given.plain.head?)
  | "resolve" => do
    let given ← given? [.document] 1 false arguments
    return .resolve (← orMisused given.plain.head?) (given.value? .document)
  | "insert-keys" => do
    let given ← given? [.document, .templates] 1 false arguments
    return .insertKeys (← orMisused given.plain.head?) (← orMisused (given.value? .document)) (given.has .templates)
  | "suggest" => do
    let given ← given? [.document] 1 false arguments
    return .suggest (← orMisused given.plain.head?) (given.value? .document)
  | "remove" => do
    let given ← given? [.document] 1 false arguments
    return .remove (← orMisused given.plain.head?) (← orMisused (given.value? .document))
  | "diagnostics" => do
    let _ ← given? [] 0 false arguments
    return .diagnostics
  | "help" =>
    match arguments with
    | [] => .error .help
    | [topic] => .error (if ("help" :: commandNames).contains topic then .help else .misused)
    | _ => .error .misused
  | _ => .error .misused

def Invocation.ofArguments? (arguments : List String) : Except Refused Invocation := do
  let (given, rest) ← read? programForm arguments .none
  match rest with
  | [] => .error .misused
  | name :: arguments =>
    return {
      settings := given.value? .settings
      schema := given.value? .schema
      root := given.value? .root
      strict := given.has .strict
      command := ← command? name arguments }

end SchemaGuide.CommandLine
