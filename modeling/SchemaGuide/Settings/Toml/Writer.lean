import SchemaGuide.Schema.Failure
import SchemaGuide.Settings.Basic
import SchemaGuide.Settings.Toml.Text

/-!
Settings written as TOML, a table for each section and an empty line between them.
-/

namespace SchemaGuide.Settings

def tomlSection (name : String) (entries : List (String × String)) : String :=
  "[" ++ name ++ "]\n" ++ String.join (entries.map fun (key, value) => key ++ " = " ++ value ++ "\n")

def tomlText (value : String) : Except Failure String :=
  if Toml.isCountable value.toList then .ok (Toml.quoted value) else .error .fault

def toToml (settings : Settings) : Except Failure String := do
  let path ← tomlText settings.path
  let root ← tomlText settings.root
  let suffix ← tomlText settings.suffix
  return String.intercalate "\n"
    [tomlSection "schema" [("path", path), ("root", root), ("strict", if settings.strict then "true" else "false")],
     tomlSection "advisor" [("sample_suffix", suffix)],
     tomlSection "output" [("format", Toml.quoted settings.format.word)]]

end SchemaGuide.Settings
