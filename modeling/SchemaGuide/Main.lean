import SchemaGuide.CommandLine.Run

/-!
The program: files come from the disk, variables and arguments from the caller.
-/

namespace SchemaGuide.Main

def attempt {α : Type} (action : IO α) : IO (Option α) := do
  try return some (← action) catch _ => return none

partial def filesBelow (folder : String) : IO (List Trail) := do
  let entries := (← attempt ((← IO.currentDir) / folder).readDir).getD #[]
  let found ← entries.toList.mapM fun entry => do
    if ← entry.path.isDir then
      return (← filesBelow (FilePath.join folder entry.fileName)).map (entry.fileName :: ·)
    else return [[entry.fileName]]
  return found.flatten

def disk : IO (Storage IO) := do
  let here ← IO.currentDir
  return {
    here := here.toString
    readText path := if path.isEmpty then pure none else attempt (IO.FS.readFile path)
    isFile path := do return !path.isEmpty && (← (here / path).pathExists) && !(← (here / path).isDir)
    isFolder path := do return !path.isEmpty && (← (here / path).isDir)
    filesBelow }

def environment : IO (Entries String) := do
  let listed := (← attempt (IO.FS.readFile "/proc/self/environ")).getD ""
  return (Text.pieces (· = '\x00') listed.toList).filterMap fun entry =>
    match entry.dropWhile (· ≠ '=') with
    | [] => none
    | _ :: value => some (String.ofList (entry.takeWhile (· ≠ '=')), String.ofList value)

end SchemaGuide.Main

def main (arguments : List String) : IO UInt32 := do
  let outcome ← SchemaGuide.CommandLine.run (← SchemaGuide.Main.disk) (← SchemaGuide.Main.environment) arguments
  (← IO.getStderr).putStr outcome.notes
  (← IO.getStdout).putStr outcome.output
  return outcome.status
