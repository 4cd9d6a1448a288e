import SchemaGuide.Files.Storage

/-!
A tree of files in memory. Paths are followed part by part: every part but the last must be a folder, two points lead
to the folder around, and a slash at the end asks for a folder.
-/

namespace SchemaGuide

structure Tree where
  here : Trail
  files : List (Trail × String)
  /-- Folders that exist even if they hold nothing. -/
  folders : List Trail

namespace Tree

def isFolder (tree : Tree) (trail : Trail) : Bool :=
  trail.isPrefixOf tree.here || tree.folders.any trail.isPrefixOf ||
    tree.files.any fun (file, _) => trail.isPrefixOf file && trail.length < file.length

/-- One part of a path, taken from a folder. -/
def follow? (tree : Tree) (trail : Trail) (part : String) : Option Trail :=
  if tree.isFolder trail then
    some (if part = "" || part = "." then trail else if part = ".." then trail.dropLast else trail ++ [part])
  else none

/-- Whether a path can be asked for: not empty, of limited length in all and part by part, and without a zero. -/
def isAskable (path : String) : Bool :=
  !path.isEmpty && !path.contains '\x00' && path.utf8ByteSize < 4096 &&
    (FilePath.parts path).all (·.utf8ByteSize < 256)

def resolve? (tree : Tree) (path : String) : Option Trail :=
  if !isAskable path then none
  else (FilePath.parts path).foldlM tree.follow? (if FilePath.isAbsolute path then [] else tree.here)

def readText (tree : Tree) (path : String) : Option String := (tree.resolve? path).bind (tree.files.lookup ·)

def storage (tree : Tree) : Storage Id where
  here := "/" ++ String.intercalate "/" tree.here
  readText := tree.readText
  isFile path := (tree.readText path).isSome
  isFolder path := (tree.resolve? path).any tree.isFolder
  filesBelow path :=
    match tree.resolve? path with
    | none => []
    | some trail => tree.files.filterMap fun (file, _) =>
      if trail.isPrefixOf file && trail.length < file.length then some (file.drop trail.length) else none

/-- The tree with one more file; its folder must exist, and no folder may have its name. -/
def write? (tree : Tree) (path content : String) : Option Tree :=
  let parts := FilePath.parts path
  let start := if FilePath.isAbsolute path then [] else tree.here
  match parts.getLast?, parts.dropLast.foldlM tree.follow? start with
  | some name, some folder =>
    let trail := folder ++ [name]
    if !isAskable path || ["", ".", ".."].contains name || !tree.isFolder folder || tree.isFolder trail then none
    else some { tree with files := (trail, content) :: tree.files.filter (·.1 ≠ trail) }
  | _, _ => none

end Tree

end SchemaGuide
