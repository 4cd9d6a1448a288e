import SchemaGuide.Editor
import SchemaGuide.Json.Printer

/-!
What a user may set: where the schema is and which definition is its root, how sample keys end, and how JSON is
printed.
-/

namespace SchemaGuide

inductive OutputFormat where
  | pretty
  | compact
  deriving DecidableEq

namespace OutputFormat

def word : OutputFormat → String
  | pretty => "pretty"
  | compact => "compact"

def ofWord? (word : String) : Option OutputFormat := [pretty, compact].find? (·.word = word)

def render : OutputFormat → Json → String
  | pretty => Json.pretty
  | compact => Json.compact

end OutputFormat

structure Settings where
  /-- A file of definitions, or a folder with one file for each. -/
  path : String
  root : String
  /-- Whether a tag without a definition is refused. -/
  strict : Bool
  suffix : String
  format : OutputFormat

namespace Settings

def standard : Settings := ⟨"schema.json", "Root", false, Editor.standardSuffix, .pretty⟩

end Settings

end SchemaGuide
