import SchemaGuide.Text.Pieces

/-!
Files as the rest of the library sees them: a few questions, answered in any monad. A folder that is at hand answers
them purely, and a disk in `IO`.
-/

namespace SchemaGuide

/-- Names from the outermost folder to the innermost or to a file. -/
abbrev Trail := List String

structure Storage (m : Type → Type) where
  /-- The working folder, from which relative paths lead. -/
  here : String
  readText : String → m (Option String)
  isFile : String → m Bool
  isFolder : String → m Bool
  /-- All files below a folder, at any depth, with their names from that folder on. -/
  filesBelow : String → m (List Trail)

namespace FilePath

def isAbsolute (path : String) : Bool := path.toList.head? = some '/'

def parts (path : String) : List String := (Text.pieces (· = '/') path.toList).map String.ofList

def join (folder inner : String) : String :=
  if folder.isEmpty || folder.toList.getLast? = some '/' then folder ++ inner else folder ++ "/" ++ inner

/-- A path seen from anywhere: relative ones lead from `here`. -/
def under (here path : String) : String :=
  if isAbsolute path then path else join here path

/-- The path without empty parts and single points at its end, if a name is left there. -/
def trimmed? (path : String) : Option String :=
  match (parts path).reverse.dropWhile fun part => part = "" || part = "." with
  | [] => none
  | ".." :: _ => none
  | rest => some (String.intercalate "/" rest.reverse)

/-- A file name around its last point; a point in front starts no extension. -/
def splitName (name : String) : String × Option String :=
  let reversed := name.toList.reverse
  let extension := reversed.takeWhile (· ≠ '.')
  match reversed.dropWhile (· ≠ '.') with
  | _ :: stem =>
    if stem.isEmpty then (name, none)
    else (String.ofList stem.reverse, some (String.ofList extension.reverse))
  | [] => (name, none)

def extension? (name : String) : Option String := (splitName name).2

def stem (name : String) : String := (splitName name).1

end FilePath

end SchemaGuide
