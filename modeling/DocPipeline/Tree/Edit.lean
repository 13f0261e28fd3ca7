import DocPipeline.Tree.Basic

namespace DocPipeline.Tree

def put (tree : Tree) (location : Location) (entry : Entry) : Tree :=
  ⟨tree.entries.filter (·.1 != location) ++ [(location, entry)]⟩

-- The path without slashes at its end, and whether there were any.
def withoutSlashes (path : Path) : Path × Bool :=
  let kept := path.text.toList.reverse.dropWhile (· == '/')
  if kept.isEmpty then (path, false)
  else (⟨String.ofList kept.reverse⟩, kept.length < path.text.toList.length)

-- Writes a file in an existing directory, through links.
def writeBytes (tree : Tree) (path : Path) (bytes : ByteArray) : Except IoError Tree :=
  let (trimmed, slashes) := withoutSlashes path
  match tree.place trimmed true with
  | .error e => .error e
  | .ok (.vacant location) =>
    if slashes then .error .isDirectory else .ok (tree.put location (.file bytes))
  | .ok (.found location (.file _)) =>
    if slashes then .error .notDirectory else .ok (tree.put location (.file bytes))
  | .ok (.found _ _) => .error .isDirectory

def write (tree : Tree) (path : Path) (text : String) : Except IoError Tree :=
  tree.writeBytes path text.toUTF8

-- Puts an entry where there is none yet.
def create (tree : Tree) (path : Path) (entry : Entry) : Except IoError Tree :=
  match tree.place path false with
  | .error e => .error e
  | .ok (.vacant location) => .ok (tree.put location entry)
  | .ok (.found _ _) => .error .alreadyExists

def createDirectory (tree : Tree) (path : Path) : Except IoError Tree :=
  tree.create path .directory

-- The directory that a path names its last part in.
def parent? (path : Path) : Option Path :=
  match path.parts.reverse with
  | [] | [.root] => none
  | _ :: parts => some (Path.ofParts parts.reverse)

-- Creates a directory with the missing ones above it. The fuel bounds the count of those.
def createWithParents : Nat → Tree → Path → Tree × Option IoError
  | fuel, tree, path =>
    let settled (tree : Tree) (e : IoError) : Tree × Option IoError :=
      if tree.isDirectory path then (tree, none) else (tree, some e)
    match tree.createDirectory path with
    | .ok tree => (tree, none)
    | .error .notFound =>
      match fuel, parent? path with
      | fuel + 1, some parent =>
        match createWithParents fuel tree parent with
        | (tree, some e) => (tree, some e)
        | (tree, none) =>
          match tree.createDirectory path with
          | .ok tree => (tree, none)
          | .error e => settled tree e
      | _, _ => (tree, some .notFound)
    | .error e => settled tree e

-- An operation that fails leaves the tree as it was, except that the directories it created on the
-- way stay.
def createDirectories (tree : Tree) (path : Path) : Tree × Option IoError :=
  if path.text = "" then (tree, none) else createWithParents path.parts.length tree path

-- Takes away a file or a link; what a link leads to stays.
def remove (tree : Tree) (path : Path) (base : Option Location := none) : Except IoError Tree :=
  match tree.place path false base with
  | .error e => .error e
  | .ok (.vacant _) => .error .notFound
  | .ok (.found _ .directory) => .error .isDirectory
  | .ok (.found location _) => .ok ⟨tree.entries.filter (·.1 != location)⟩

-- Takes away a directory with all that is in it. Links in it are taken away themselves, and so is
-- one in its place.
def removeAll (tree : Tree) (path : Path) (base : Option Location := none) :
    Except IoError Tree :=
  match tree.place path false base with
  | .error e => .error e
  | .ok (.vacant _) => .error .notFound
  | .ok (.found location .directory) =>
    .ok ⟨tree.entries.filter fun e => !location.isPrefixOf e.1⟩
  | .ok (.found location (.link _)) => .ok ⟨tree.entries.filter (·.1 != location)⟩
  | .ok (.found _ (.file _)) => .error .notDirectory

end DocPipeline.Tree
