import DocPipeline.CommandLine.Program
import DocPipeline.Tree.Changes
import Std.Time

namespace DocPipeline.CommandLine

def locationOf (path : String) : Location := (Path.mk path).segments.filter (· ≠ "")

def pathOf (location : Location) : String := "/" ++ "/".intercalate location

-- The directories that lead to a location.
def withParents (tree : Tree) (location : Location) : Tree :=
  let parents := (List.range location.length).map fun n => location.take (n + 1)
  parents.foldl (fun tree parent => tree.put parent .directory) tree

def orDefault {α : Type} (default : α) (action : IO α) : IO α :=
  tryCatch action fun _ => return default

-- Adds an entry of a directory, with everything below it. What cannot be read is left out.
partial def addEntry (tree : Tree) (entry : IO.FS.DirEntry) : IO Tree := orDefault tree do
  let location := locationOf entry.path.toString
  match (← entry.path.symlinkMetadata).type with
  | .dir => (← entry.path.readDir).foldlM addEntry (tree.put location .directory)
  | .symlink => return tree.put location (.link (← IO.FS.realPath entry.path).toString)
  | .file => return tree.put location (.file (← IO.FS.readBinFile entry.path))
  | .other => return tree

def addDirectory (tree : Tree) (path : String) : IO Tree := orDefault tree do
  let dir ← IO.FS.realPath path
  (← dir.readDir).foldlM addEntry (withParents tree (locationOf dir.toString))

-- The directory in which a path names its last part.
def directoryOf (dir : Path) (name : String) : String :=
  ((Tree.parent? (dir.join ⟨name⟩)).getD dir).text

-- The directories that a run may look into, besides the one it works in.
def otherDirectories (dir : Path) (arguments : List String) (logDirEnv : Option String) :
    List String :=
  match Arguments.parse arguments logDirEnv with
  | .error _ => []
  | .ok arguments => (arguments.config.map (directoryOf dir)).toList ++
      (arguments.logDir.map fun name => (dir.join ⟨name⟩).text).toList

def putBack (changes : Tree.Changes) : IO Unit := do
  for (location, entry) in changes.removed do
    if entry.isDirectory then IO.FS.removeDir (pathOf location)
    else IO.FS.removeFile (pathOf location)
  for (location, entry) in changes.written do
    match entry with
    | .directory => IO.FS.createDirAll (pathOf location)
    | .file bytes => IO.FS.writeBinFile (pathOf location) bytes
    | .link _ => pure ()

def today : IO String := do
  let now ← Std.Time.Timestamp.now
  return (Std.Time.PlainDate.ofEpochDay now.toDaysSinceUnixEpoch).format "uuuu-MM-dd"

end DocPipeline.CommandLine

open DocPipeline DocPipeline.CommandLine

-- The program that runs from a shell. It takes in the files of the working directory, of the
-- directory that holds the configuration and of the one for log files, lets the run work on them,
-- and puts back what the run has changed.
def main (arguments : List String) : IO UInt32 := do
  let dir := (← IO.currentDir).toString
  let logDirEnv ← IO.getEnv logDirVariable
  let tree ← (dir :: otherDirectories ⟨dir⟩ arguments logDirEnv).foldlM addDirectory .empty
  let exit := execute { arguments, logDirEnv, date := ← today, dir := ⟨dir⟩, tree }
  putBack (tree.changesTo exit.tree)
  exit.console.forM IO.println
  exit.errors.forM IO.eprintln
  return exit.code.toUInt32
