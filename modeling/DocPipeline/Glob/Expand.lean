import DocPipeline.Glob.Basic
import DocPipeline.Tree.Basic

namespace DocPipeline.Glob

variable (tree : Tree)

def exists? (path : Path) : Bool :=
  match tree.place path false with
  | .ok (.found _ _) => true
  | _ => false

def childNames (path : Path) : List String :=
  match tree.find path with
  | .ok (location, .directory) => tree.names location
  | _ => []

def lastName (path : Path) : String := (path.segments.getLast?).getD ""

def isNameMatch (tokens : List Token) (path : Path) : Bool :=
  isMatch tokens (lastName path).toList

-- Segments after several in a row that stand for any depth, of which one is enough.
def dropAnyDepth : List (List Token) → List (List Token)
  | [] => []
  | segment :: rest => if isAnyDepth segment then dropAnyDepth rest else segment :: rest

mutual

-- The matches of the segments below a directory.
def matchesBelow : Nat → Path → List (List Token) → List Path
  | 0, _, _ => []
  | _, _, [] => []
  | fuel + 1, dir, segment :: rest =>
    let through (path : Path) : List Path :=
      if rest.isEmpty then [path] else matchesBelow fuel path rest
    match literal? segment with
    | some name => if exists? tree (dir.join ⟨name⟩) then through (dir.join ⟨name⟩) else []
    | none =>
      if tree.isDirectory dir then
        let special := if segment.head? = some (.char '.') then
            ["..", "."].filter fun name => isMatch segment name.toList
          else []
        special.flatMap (fun name => through (dir.join ⟨name⟩)) ++
          (childNames tree dir).flatMap fun name =>
            matchesAt fuel (dir.join ⟨name⟩) (segment :: rest)
      else []

-- The matches at an entry whose name is to match the first segment, and below it.
def matchesAt : Nat → Path → List (List Token) → List Path
  | 0, _, _ => []
  | _, _, [] => []
  | fuel + 1, path, segment :: rest =>
    if isAnyDepth segment then
      let here := match dropAnyDepth rest with
        | [] => if tree.isDirectory path then [path] else []
        | next :: others => matchesName fuel path next others
      if tree.isDirectory path then
        here ++ matchesBelow fuel path (segment :: dropAnyDepth rest)
      else here
    else matchesName fuel path segment rest

def matchesName : Nat → Path → List Token → List (List Token) → List Path
  | 0, _, _, _ => []
  | fuel + 1, path, segment, rest =>
    if isNameMatch segment path then
      if rest.isEmpty then [path] else matchesBelow fuel path rest
    else []

end

-- A path goes through each entry of the tree at most as often as links may be followed.
def depthBound : Nat := 4 * (tree.entries.length + 2) * (maxLinks + 2)
where maxLinks : Nat := Tree.maxLinks

end DocPipeline.Glob

namespace DocPipeline

-- The paths of a tree that match a glob pattern, in the order of their names. Links to directories
-- are entered. A segment that begins with a dot may also stand for `.` or `..`, which come before
-- the names of the directory.
def Glob.expand (tree : Tree) (glob : Glob) : List Path :=
  Glob.matchesBelow tree (Glob.depthBound tree + 3 * glob.segments.length) ⟨"/"⟩ glob.segments

end DocPipeline
