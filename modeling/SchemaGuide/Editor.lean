import SchemaGuide.Schema.Failure
import SchemaGuide.Schema.Offer
import SchemaGuide.Schema.Removal
import SchemaGuide.Schema.Validation

/-!
A schema together with the definition that documents are held to, and all that an editor asks about such documents.
-/

namespace SchemaGuide

structure Editor where
  schema : Schema
  root : String
  /-- What the key of a sample element ends in. -/
  suffix : String

/-- The node at a path and its sample. -/
structure Preview where
  node : Node
  sample : Json

namespace Editor

def standardSuffix : String := "sample"

def open? (schema : Schema) (root : String) : Except Failure Editor :=
  match schema.definition? root with
  | none => .error (.notFound root)
  | some _ => .ok ⟨schema, root, standardSuffix⟩

def validate (editor : Editor) (document : Json) : List Problem :=
  match editor.schema.definition? editor.root with
  | none => []
  | some node => editor.schema.problems document node

/-- The problems of the part at a path; an absent part is null. -/
def validateAt (editor : Editor) (document : Json) (path : Path) : Except Refusal (List Problem) := do
  let node ← editor.schema.nodeAt editor.root path (some document)
  let found := editor.schema.problems ((document.at? path).getD .null) node
  return found.map fun problem => { problem with path := path ++ problem.path }

def nodeAt (editor : Editor) (path : Path) (document : Option Json) : Except Refusal Node :=
  editor.schema.nodeAt editor.root path document

/-- What belongs at a path, be there anything yet or not. -/
def preview (editor : Editor) (path : Path) (document : Option Json) : Except Refusal Preview := do
  let node ← editor.nodeAt path document
  return ⟨node, editor.schema.template node⟩

def offers (editor : Editor) (path : Path) (document : Json) : Except Refusal (List Offer) :=
  editor.schema.offers editor.suffix editor.root path document

def insertKeys (editor : Editor) (path : Path) (document : Json) : Except Refusal (Entries String) :=
  editor.schema.insertKeys editor.suffix editor.root path document

def suggestions (editor : Editor) (path : Path) (document : Option Json) : Except Refusal (List String) :=
  editor.schema.suggestions editor.root path document

def checkRemoval (editor : Editor) (document : Json) (path : Path) : Except Objection Unit :=
  editor.schema.checkRemoval editor.root document path

def remove (editor : Editor) (document : Json) (path : Path) : Except Objection Json := do
  editor.checkRemoval document path
  return document.removeAt path

end Editor

end SchemaGuide
