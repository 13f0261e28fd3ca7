import DocPipeline.Path.Basic

namespace DocPipeline

abbrev Location := List String

inductive Entry where
  | file (bytes : ByteArray)
  | directory
  | link (target : String)
deriving Inhabited

-- Files are equal when their bytes are.
instance : DecidableEq Entry
  | .file a, .file b => decidable_of_iff (a.data = b.data) (by simp [ByteArray.ext_iff])
  | .directory, .directory => isTrue rfl
  | .link a, .link b => decidable_of_iff (a = b) (by simp)
  | .file _, .directory | .file _, .link _ | .directory, .file _ => isFalse (by simp)
  | .directory, .link _ | .link _, .file _ | .link _, .directory => isFalse (by simp)

inductive IoError where
  | notFound
  | alreadyExists
  | notDirectory
  | isDirectory
  | linkLoop
  | notUtf8
  | nulByte
deriving DecidableEq, Inhabited

def IoError.message : IoError → String
  | notFound => "No such file or directory (os error 2)"
  | alreadyExists => "File exists (os error 17)"
  | notDirectory => "Not a directory (os error 20)"
  | isDirectory => "Is a directory (os error 21)"
  | linkLoop => "Too many levels of symbolic links (os error 40)"
  | notUtf8 => "stream did not contain valid UTF-8"
  | nulByte => "file name contained an unexpected NUL byte"

-- Files, directories and links, each at a location: the names that lead to it from the root, which
-- is a directory and has no entry.
structure Tree where
  entries : List (Location × Entry)
deriving Inhabited

namespace Tree

def empty : Tree := ⟨[]⟩

def get? (tree : Tree) (location : Location) : Option Entry :=
  if location = [] then some .directory
  else (tree.entries.find? (·.1 == location)).map (·.2)

-- Where a path leads: to an entry, or to a place in a directory where there is none yet.
inductive Place where
  | found (location : Location) (entry : Entry)
  | vacant (location : Location)
deriving Inhabited

section Follow

variable (tree : Tree) (followLast : Bool)
variable (onLink : Location → List String → Except IoError Place)

-- Follows segments from a directory, and hands over at a link. A path is followed name by name. A
-- link on the way is replaced by its target, at most `maxLinks` times; `..` leads to the parent of
-- the place reached so far.
def followSegments (location : Location) : List String → Except IoError Place
  | [] => .ok (.found location .directory)
  | segment :: rest =>
    if segment = "" ∨ segment = "." then followSegments location rest
    else if segment = ".." then followSegments location.dropLast rest
    else
      let there := location ++ [segment]
      match tree.get? there with
      | none => if rest = [] then .ok (.vacant there) else .error .notFound
      | some .directory => followSegments there rest
      | some (.file bytes) =>
        if rest = [] then .ok (.found there (.file bytes)) else .error .notDirectory
      | some (.link target) =>
        if rest = [] ∧ ¬ followLast then .ok (.found there (.link target))
        else
          let start := if (Path.mk target).isAbsolute then [] else location
          onLink start ((Path.mk target).segments ++ rest)

end Follow

def maxLinks : Nat := 40

def follow (tree : Tree) (followLast : Bool) : Nat → Location → List String → Except IoError Place
  | 0 => tree.followSegments followLast fun _ _ => .error .linkLoop
  | links + 1 => tree.followSegments followLast (tree.follow followLast links)

-- Where following a path begins: at the root, or for a relative path at the base, if there is one.
def start? (path : Path) (base : Option Location) : Option Location :=
  if path.isAbsolute then some [] else if path.text = "" then none else base

def place (tree : Tree) (path : Path) (followLast : Bool) (base : Option Location := none) :
    Except IoError Place :=
  if path.text.toList.contains '\x00' then .error .nulByte
  else
    match start? path base with
    | none => .error .notFound
    | some location => tree.follow followLast maxLinks location path.segments

-- The entry a path leads to, with its location.
def find (tree : Tree) (path : Path) (base : Option Location := none) :
    Except IoError (Location × Entry) :=
  match tree.place path true base with
  | .ok (.found location entry) => .ok (location, entry)
  | .ok (.vacant _) => .error .notFound
  | .error e => .error e

def isFile (tree : Tree) (path : Path) : Bool :=
  match tree.find path with
  | .ok (_, .file _) => true
  | _ => false

def isDirectory (tree : Tree) (path : Path) : Bool :=
  match tree.find path with
  | .ok (_, .directory) => true
  | _ => false

def readText (tree : Tree) (path : Path) : Except IoError String :=
  match tree.find path with
  | .ok (_, .file bytes) =>
    match String.fromUTF8? bytes with
    | some text => .ok text
    | none => .error .notUtf8
  | .ok _ => .error .isDirectory
  | .error e => .error e

def isBelow (location above : Location) : Bool :=
  above.isPrefixOf location && above.length < location.length

-- The location of a path with every link on the way replaced.
def resolve? (tree : Tree) (path : Path) (base : Option Location := none) : Option Location :=
  match tree.find path base with
  | .ok (location, _) => some location
  | .error _ => none

-- Name by name, in the order of the names' characters. A location comes before those below it.
def comesBefore : Location → Location → Bool
  | [], _ => true
  | _ :: _, [] => false
  | p :: ps, q :: qs => if p = q then comesBefore ps qs else p < q

def sortLocations (locations : List Location) : List Location := locations.mergeSort comesBefore

-- The entries below a location, depth first, each by the names that lead to it from there.
def below (tree : Tree) (location : Location) : List Location :=
  sortLocations ((tree.entries.filter fun e => isBelow e.1 location).map fun e =>
    e.1.drop location.length)

def isFileAt (tree : Tree) (location : Location) : Bool :=
  match tree.get? location with
  | some (.file _) => true
  | _ => false

def filesBelow (tree : Tree) (location : Location) : List Location :=
  (tree.below location).filter fun names => tree.isFileAt (location ++ names)

-- The names in a directory in order.
def names (tree : Tree) (location : Location) : List String :=
  (tree.below location).filterMap fun
    | [name] => some name
    | _ => none

end Tree

end DocPipeline
