import SchemaGuide.Files.Storage
import SchemaGuide.Json.Parser
import SchemaGuide.Schema.Failure
import SchemaGuide.Settings.Environment
import SchemaGuide.Settings.Ini
import SchemaGuide.Settings.Json5
import SchemaGuide.Settings.Ron
import SchemaGuide.Settings.Toml.Reader
import SchemaGuide.Settings.Yaml.Reader
import SchemaGuide.Source

/-!
Settings in layers, later ones over earlier ones: the standard, the files at the usual places, one file that the user
names, and the environment. Files at the usual places may be missing, the named one may not.
-/

namespace SchemaGuide.Settings

variable {m : Type → Type} [Monad m]

/-- Where settings are looked for without being asked to. -/
def usualFiles : List String := ["schema-nav.toml", ".schema-nav.toml", "config/schema-nav.toml"]

abbrev Reader := String → Except Failure (Entries Setting)

def reading (parse? : String → Option (Entries Setting)) : Reader := fun text =>
  match parse? text with
  | none => .error .settings
  | some entries => .ok entries

def membersOfJson? (text : String) : Option (Entries Setting) :=
  ((Json.parse? text).bind Json.members?).map Setting.ofMembers

/-- The readers of files by the extension of their names. -/
def readers : List (String × Reader) :=
  [("toml", reading Toml.parse?), ("json", reading membersOfJson?), ("yaml", Yaml.parse), ("yml", Yaml.parse),
    ("json5", reading Json5.parse?), ("ini", reading Ini.parse?), ("ron", reading Ron.parse?)]

def reader? (path : String) : Option Reader :=
  (FilePath.extension? ((FilePath.parts path).getLastD "")).bind (readers.lookup ·)

def firstFile (storage : Storage m) : List String → m (Option String)
  | [] => return none
  | path :: others => do
    if ← storage.isFile path then return some path
    firstFile storage others

/-- The file that a name stands for: the one of this very name, or one with an extension added. -/
def findFile (storage : Storage m) (name : String) : m (Option String) :=
  let extended (base : String) := readers.map fun (extension, _) => base ++ "." ++ extension
  firstFile storage (name :: (FilePath.trimmed? name).toList.flatMap extended)

def openFile (storage : Storage m) (name : String) : m (Option (Reader × String)) := do
  match ← findFile storage name with
  | none => return none
  | some path =>
    match reader? path, ← storage.readText path with
    | some reader, some text => return some (reader, text)
    | _, _ => return none

def laid (source : Entries Setting) (known : Setting) : Except Failure Setting :=
  match Setting.layOver? source known with
  | none => .error .fault
  | some settings => .ok settings

def layFile (storage : Storage m) (required : Bool) (known : Except Failure Setting) (name : String) :
    m (Except Failure Setting) := do
  match known with
  | .error failure => return .error failure
  | .ok known =>
    match ← openFile storage name with
    | none => return if required then .error .settings else .ok known
    | some (reader, text) =>
      return (reader text).bind fun source => laid source known

def load (storage : Storage m) (environment : Entries String) (named : Option String) : m (Except Failure Settings) := do
  let usual ← usualFiles.foldlM (layFile storage false) (.ok Setting.empty)
  let filed ← named.toList.foldlM (layFile storage true) usual
  return filed.bind fun known => (laid (ofVariables environment) known).bind fun all =>
    match ofSetting? all with
    | none => .error .settings
    | some settings => .ok settings

def schemaPath (storage : Storage m) (settings : Settings) : String := FilePath.under storage.here settings.path

def openEditor (storage : Storage m) (settings : Settings) : m (Except Failure Editor) := do
  let schema ← Source.load storage settings.strict (settings.schemaPath storage)
  return schema.bind fun schema => (Editor.open? schema settings.root).map fun editor =>
    { editor with suffix := settings.suffix }

end SchemaGuide.Settings
