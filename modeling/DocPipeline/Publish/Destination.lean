import DocPipeline.Failure.Basic
import DocPipeline.Config.Locate
import DocPipeline.Tree.Edit

namespace DocPipeline.Destination

def contains (tree : Tree) (destination dir : Path) (base : Option Location := none) : Bool :=
  dir.normalize.isWithin destination.normalize ||
    match tree.resolve? destination base, tree.resolve? dir base with
    | some outer, some inner => outer.isPrefixOf inner
    | _, _ => false

def refusal (destination : Path) : Failure :=
  .invalidConfig ("refusing to empty destination " ++ destination.text ++
    " because it contains the working directory")

def unreadable (destination : Path) (e : IoError) : Failure :=
  e.failure ("Failed to read destination: " ++ destination.text)

def unremovable (path : Path) (e : IoError) : Failure :=
  e.failure ("Failed to remove " ++ path.text)

-- Takes away one entry of the directory at a location, by its path.
def removeEntry (tree : Tree) (location : Location) (name : String) (path : Path)
    (base : Option Location) : Except IoError Tree :=
  if tree.get? (location ++ [name]) = some .directory then tree.removeAll path base
  else tree.remove path base

-- Takes away the entries of the destination, which is at a location. What was taken away before a
-- failure is gone.
def removeEach (destination : Path) (location : Location) (base : Option Location) :
    List String → Tree → Tree × Except Failure Unit
  | [], tree => (tree, .ok ())
  | name :: rest, tree =>
    let path := destination.join ⟨name⟩
    match removeEntry tree location name path base with
    | .ok tree => removeEach destination location base rest tree
    | .error e => (tree, .error (unremovable path e))

-- The tree afterwards and whether there was anything to empty. The destination itself stays. It is
-- not emptied when the working directory is inside it, in spelling or once links are resolved. What
-- is in it is taken away one by one, each by its own path, and the first failure ends that. The
-- order in which the entries of the destination are listed is a parameter.
def empty (tree : Tree) (destination dir : Path) (base : Option Location := none)
    (list : Tree → Location → List String := Tree.names) : Tree × Except Failure Bool :=
  if contains tree destination dir base then (tree, .error (refusal destination))
  else
    match tree.find destination base with
    | .ok (location, .directory) =>
      let (tree, result) := removeEach destination location base (list tree location) tree
      (tree, result.map fun () => true)
    | .ok _ => (tree, .error (unreadable destination .notDirectory))
    | .error .notFound => (tree, .ok false)
    | .error e => (tree, .error (unreadable destination e))

end DocPipeline.Destination
