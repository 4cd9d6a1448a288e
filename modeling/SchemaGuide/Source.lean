import SchemaGuide.Declaration.Compile
import SchemaGuide.Declaration.Reader
import SchemaGuide.Files.Storage
import SchemaGuide.Json.Parser
import SchemaGuide.Schema.Build

/-!
Schemas loaded from files. One file holds a table of declarations; a folder holds one declaration a file, which is
named after the file, and the files come in the order of their names.
-/

namespace SchemaGuide.Source

variable {m : Type → Type} [Monad m]

def build? (strict : Bool) (table : Entries Declaration) : Except Failure Schema := do
  Schema.build? strict (← Declaration.compileTable table)

/-- The schema of a document: a table, or an object with a table under `definitions`. -/
def ofJson? (strict : Bool) (value : Json) : Except Failure Schema :=
  match Declaration.tableOfJson? value with
  | none => .error .malformed
  | some table => build? strict table

def ofText? (strict : Bool) (text : String) : Except Failure Schema :=
  match Json.parse? text with
  | none => .error .malformed
  | some value => ofJson? strict value

/-- Drops a mark from the end as often as it stands there; `bound` is enough if the name is no longer. -/
def dropMark (mark : List Char) : (bound : Nat) → List Char → List Char
  | 0, name => name
  | bound + 1, name => if mark.isSuffixOf name then dropMark mark bound (name.take (name.length - mark.length)) else name

/-- The definition that a file declares: its name without the extension and without `.node` marks before it. -/
def definitionName (fileName : String) : String :=
  let stem := (FilePath.stem fileName).toList
  String.ofList (dropMark ".node".toList stem.length stem)

/-- A file of a folder that declares a definition. -/
def declares (trail : Trail) : Bool :=
  match trail.getLast? with
  | none => false
  | some name => FilePath.extension? name = some "json" && !(definitionName name).isEmpty

def addFile (table : Entries Declaration) (name shown : String) (text : Option String) :
    Except Failure (Entries Declaration) :=
  match text with
  | none => .error .unreadable
  | some text =>
    match (Json.written? text).bind Declaration.ofWritten? with
    | none => .error .malformed
    | some declaration =>
      if (Entries.keys table).contains name then .error (.invalidFormat shown ("duplicate definition '" ++ name ++ "'"))
      else .ok (table ++ [(name, declaration)])

def folderTable (storage : Storage m) (folder : String) :
    List Trail → Entries Declaration → m (Except Failure (Entries Declaration))
  | [], table => pure (.ok table)
  | trail :: rest, table => do
    let path := FilePath.join folder (String.intercalate "/" trail)
    match addFile table (definitionName (trail.getLastD "")) path (← storage.readText path) with
    | .error failure => pure (.error failure)
    | .ok table => folderTable storage folder rest table

def loadFolder (storage : Storage m) (strict : Bool) (folder : String) : m (Except Failure Schema) := do
  let trails := ((← storage.filesBelow folder).filter declares).mergeSort fun first second => !(second < first)
  return (← folderTable storage folder trails []).bind (build? strict)

def load (storage : Storage m) (strict : Bool) (path : String) : m (Except Failure Schema) := do
  if ← storage.isFolder path then loadFolder storage strict path
  else
    match ← storage.readText path with
    | none => return .error .unreadable
    | some text => return ofText? strict text

end SchemaGuide.Source
