import DocPipeline.Failure.Basic
import DocPipeline.Glob.Expand
import DocPipeline.Json.Basic

namespace DocPipeline

structure Hydrated where
  files : List Path := []
  globs : List String := []
deriving DecidableEq, Inhabited

namespace Hydrated

def toJson (hydrated : Hydrated) : Json :=
  .object [("files", .strings (hydrated.files.map (·.text))), ("globs", .strings hydrated.globs)]

def addFile (files : List Path) (file : Path) : List Path :=
  if files.any (·.sameAs file) then files else files ++ [file]

-- Adds what one pattern stands for, under the glob that records it.
def add (hydrated : Hydrated) (files : List Path) (glob : String) : Hydrated :=
  ⟨files.foldl addFile hydrated.files, hydrated.globs ++ [glob]⟩

end Hydrated

namespace Discovery

def hasWildcard (pattern : String) : Bool :=
  pattern.toList.any fun c => c == '*' || c == '?' || c == '[' || c == '{'

def withoutSlashes (text : String) : String :=
  String.ofList ((text.toList.reverse.dropWhile (· == '/')).reverse)

-- The files below a directory, depth first. Links below it are not followed.
def walk (tree : Tree) (dir : Path) : List Path :=
  match tree.find dir with
  | .ok (location, .directory) =>
    (tree.filesBelow location).map fun names => dir.join ⟨"/".intercalate names⟩
  | _ => []

def expandGlob (tree : Tree) (pattern : String) (absolute : Path) : Except Failure (List Path) :=
  match Glob.parse absolute with
  | .ok glob => .ok ((glob.expand tree).filter tree.isFile)
  | .error e => .error ((Failure.text e.message).note ("Invalid source glob: " ++ pattern))

-- A pattern that leads to a directory stands for all files below it, one with wildcards for the
-- files that match it, and any other for the file it names. A file is listed once, at the first
-- pattern that gives it. One glob pattern is recorded for each pattern.
def hydrateOne (tree : Tree) (dir : Path) (hydrated : Hydrated) (pattern : String) :
    Act Hydrated := do
  let absolute := Path.absolutize dir ⟨pattern⟩
  if tree.isDirectory absolute then
    return hydrated.add (walk tree absolute) (withoutSlashes absolute.text ++ "/**/*")
  else if hasWildcard pattern then
    return hydrated.add (← Act.ofExcept (expandGlob tree pattern absolute)) absolute.text
  else if tree.isFile absolute then
    return hydrated.add [absolute] absolute.text
  else
    noteAll [⟨.warn, "Source location does not exist: " ++ absolute.text⟩]
    return hydrated.add [] absolute.text

def hydrate (tree : Tree) (dir : Path) (patterns : List String) : Act Hydrated :=
  patterns.foldlM (hydrateOne tree dir) {}

end Discovery

end DocPipeline
