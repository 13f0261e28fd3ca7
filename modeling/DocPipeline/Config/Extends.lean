import DocPipeline.Config.Locate
import DocPipeline.Json.Merge

namespace DocPipeline.Config

-- The parents that a value names, as far as they are texts.
def mentions (value : Json) : List String :=
  match value.get? "extends" with
  | some (.string name) => [name]
  | some (.array items) => items.filterMap Json.asString?
  | _ => []

def textMentions (text : String) : List String :=
  ((Json.parseCommented? text).toList ++ (Yaml.parse? text).toList).flatMap mentions

def entryMentions : Entry → List String
  | .file bytes => (String.fromUTF8? bytes).toList.flatMap textMentions
  | _ => []

def treeMentions (tree : Tree) : List String := tree.entries.flatMap fun e => entryMentions e.2

def parentName (value : Json) : Except Failure String :=
  match value with
  | .string name => .ok name
  | _ => .error (.invalidConfig "'extends' entries must be strings")

def parentNames : Json → Except Failure (List String)
  | .string name => .ok [name]
  | .array items => items.mapM parentName
  | _ => .error (.invalidConfig "'extends' must be a string or an array")

def cycleFailure (path : Path) : Failure := .invalidConfig ("'extends' cycle through " ++ path.text)

-- Expands the parents in order, each by `expandParent`, and merges them.
def mergeParents (tree : Tree) (dir : Path) (chain : List Path)
    (expandParent : List Path → Json → Act Json) (names : List String) : Act Json :=
  List.foldlM (fun merged name => do
    let path := Path.absolutize dir ⟨name⟩
    if path ∈ chain then throw (cycleFailure path)
    let parent ← (load tree path).mapFailure (·.note ("Failed to load extended config: " ++ name))
    return Json.merge merged (← expandParent (path :: chain) parent)) (Json.object []) names

-- Expands a value whose parents are expanded by `expandParent`. The parents that a configuration
-- names are expanded and merged in order, and its own keys last. A parent's path is taken relative
-- to the working directory, whichever file names it, and must not lead back to a file that is being
-- expanded.
def expandWith (tree : Tree) (dir : Path) (expandParent : List Path → Json → Act Json)
    (chain : List Path) (value : Json) : Act Json :=
  match value with
  | .object entries =>
    match Json.lookup "extends" entries with
    | none => return value
    | some parents => do
      let names ← Act.ofExcept (parentNames parents)
      let merged ← mergeParents tree dir chain expandParent names
      return Json.merge merged (.object (Json.erase "extends" entries))
  | _ => throw (.invalidConfig "extended config must be an object")

-- The paths that are being expanded are the chain; `depth` bounds how much longer it may grow.
def expandFrom (tree : Tree) (dir : Path) : Nat → List Path → Json → Act Json
  | 0 => expandWith tree dir fun _ _ => throw (.invalidConfig "'extends' nests too deep")
  | depth + 1 => expandWith tree dir (expandFrom tree dir depth)

-- The paths that a chain of parents can hold are all named in some file of the tree. They are
-- counted before the expansion begins, which bounds its depth.
def expand (tree : Tree) (dir : Path) (value : Json) : Act Json :=
  match mentions value with
  | [] => expandFrom tree dir 0 [] value
  | names => expandFrom tree dir (names.length + (treeMentions tree).length) [] value

end DocPipeline.Config
