import SchemaGuide.CommandLine.Arguments
import SchemaGuide.Settings.Layers

/-!
What the program does for its arguments: the text it prints, the notes it leaves for the user, and its exit status.
Status 1 means that the command found a problem or could not be carried out, status 2 that the arguments are wrong.
-/

namespace SchemaGuide.CommandLine

structure Outcome where
  status : UInt32
  output : String
  notes : String

namespace Outcome

def line (text : String) : String := text ++ "\n"

/-- A command that cannot be carried out. -/
def failed (reason : String) : Outcome := ⟨1, "", line ("Error: " ++ reason)⟩

/-- The program stops at once, as at a subtraction that has no result. -/
def fault : Outcome := ⟨101, "", line "attempt to subtract with overflow"⟩

def printed (format : OutputFormat) (value : Json) : Outcome := ⟨0, line (format.render value), ""⟩

def ofArguments : Refused → Outcome
  | .help => ⟨0, line ("Usage: [OPTIONS] <" ++ String.intercalate "|" commandNames ++ ">"), ""⟩
  | .misused => ⟨2, "", line "error: the arguments fit no command; try '--help'"⟩

end Outcome

variable {m : Type → Type} [Monad m]

def readDocument (storage : Storage m) (path : String) : m (Except String Json) := do
  match ← storage.readText path with
  | none => return .error ("Failed to read " ++ path)
  | some text =>
    match Json.parse? text with
    | none => return .error (path ++ " is not valid JSON")
    | some value => return .ok value

def readOptional (storage : Storage m) : Option String → m (Except String (Option Json))
  | none => return .ok none
  | some path => return (← readDocument storage path).map some

def refused {α : Type} (result : Except Refusal α) : Except String α := result.mapError Refusal.message

def outcomeOf (result : Except String Outcome) : Outcome :=
  match result with
  | .ok outcome => outcome
  | .error reason => .failed reason

def validated (format : OutputFormat) (editor : Editor) (path : String) (document : Json) : Outcome :=
  let problems := editor.validate document
  let note := if problems.isEmpty then "✅ " ++ path ++ " is valid" else "❌ " ++ problems.length.repr ++ " error(s) in " ++ path
  ⟨if problems.isEmpty then 0 else 1, Outcome.line (format.render (.arr (problems.map Problem.toJson))), Outcome.line note⟩

def resolved (format : OutputFormat) (editor : Editor) (path : String) (document : Option Json) : Except String Outcome := do
  let found ← refused (editor.preview (Path.parse path) document)
  return .printed format (.obj [("kind", .str found.node.kind.word),
    ("description", Json.ofOption .str found.node.header.description), ("isRequired", .bool found.node.isRequired),
    ("data", found.sample)])

def offered (format : OutputFormat) (editor : Editor) (path : String) (templates : Bool) (document : Json) :
    Except String Outcome := do
  if templates then
    return .printed format (.arr ((← refused (editor.offers (Path.parse path) document)).map Offer.toJson))
  else
    let keys ← refused (editor.insertKeys (Path.parse path) document)
    return .printed format (.obj (keys.map fun (key, description) => (key, .str description)))

def suggested (format : OutputFormat) (editor : Editor) (path : String) (document : Option Json) : Except String Outcome := do
  return .printed format (Json.strings (← refused (editor.suggestions (Path.parse path) document)))

def removed (format : OutputFormat) (editor : Editor) (path : String) (document : Json) : Outcome :=
  match editor.remove document (Path.parse path) with
  | .ok edited => .printed format edited
  | .error (.refused refusal) => ⟨1, "", Outcome.line ("❌ " ++ refusal.message)⟩
  | .error .uncounted => .fault

/-- The defects of the schema; only those that are errors count as a problem. -/
def diagnosed (editor : Editor) : Outcome :=
  let defects := editor.schema.defects
  ⟨if defects.any (·.severity = .error) then 1 else 0, String.join (defects.map fun defect => Outcome.line defect.display),
    if defects.isEmpty then Outcome.line "✅ No schema defects" else ""⟩

def perform (storage : Storage m) (format : OutputFormat) (editor : Editor) : Command → m Outcome
  | .validate path => return outcomeOf ((← readDocument storage path).map (validated format editor path))
  | .resolve path document => return outcomeOf ((← readOptional storage document).bind (resolved format editor path))
  | .insertKeys path document templates =>
    return outcomeOf ((← readDocument storage document).bind (offered format editor path templates))
  | .suggest path document => return outcomeOf ((← readOptional storage document).bind (suggested format editor path))
  | .remove path document => return outcomeOf ((← readDocument storage document).map (removed format editor path))
  | .diagnostics => return diagnosed editor

def Invocation.override (invocation : Invocation) (settings : Settings) : Settings :=
  { settings with
    path := invocation.schema.getD settings.path
    root := invocation.root.getD settings.root
    strict := settings.strict || invocation.strict }

def run (storage : Storage m) (environment : Entries String) (arguments : List String) : m Outcome := do
  match Invocation.ofArguments? arguments with
  | .error reason => return .ofArguments reason
  | .ok invocation =>
    match ← Settings.load storage environment invocation.settings with
    | .error .fault => return .fault
    | .error failure => return .failed ("Failed to load configuration: " ++ failure.message)
    | .ok loaded =>
      let settings := invocation.override loaded
      match ← settings.openEditor storage with
      | .error failure =>
        return .failed ("Failed to load schema from " ++ settings.schemaPath storage ++ ": " ++ failure.message)
      | .ok editor => perform storage settings.format editor invocation.command

end SchemaGuide.CommandLine
