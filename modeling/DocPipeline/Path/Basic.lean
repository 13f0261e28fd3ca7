namespace DocPipeline

-- Paths as text, read as a list of parts.
structure Path where
  text : String
deriving DecidableEq, Inhabited

namespace Path

inductive Part where
  | root
  | here
  | up
  | name (value : String)
deriving DecidableEq

def Part.text : Part → String
  | root => "/"
  | here => "."
  | up => ".."
  | name value => value

def isAbsolute (path : Path) : Bool := path.text.toList.head? == some '/'

def segments (path : Path) : List String :=
  (path.text.toList.splitOn '/').map String.ofList

-- An empty segment and a `.` name no step of their own.
def Part.ofSegment? (segment : String) : Option Part :=
  if segment = "" ∨ segment = "." then none
  else if segment = ".." then some up
  else some (name segment)

-- A leading `.` of a relative path is a part, so `./a` and `a` are different lists of parts.
def parts (path : Path) : List Part :=
  let steps := path.segments.filterMap Part.ofSegment?
  if path.isAbsolute then .root :: steps
  else if path.segments.head? = some "." then .here :: steps
  else steps

def ofParts : List Part → Path
  | .root :: steps => ⟨"/" ++ "/".intercalate (steps.map Part.text)⟩
  | steps => ⟨"/".intercalate (steps.map Part.text)⟩

-- One step of reading a path, on the parts kept so far, the innermost first.
def step : List Part → Part → List Part
  | kept, .here => kept
  | .name _ :: kept, .up => kept
  | .root :: kept, .up => .root :: kept
  | kept, part => part :: kept

-- A path is normal when `.` does not occur in it, `..` occurs only at the front of a relative path,
-- and neither slashes nor the end leave an empty segment. The text alone is looked at: no file
-- system is asked, so a path need not exist and links are not followed.
def normalize (path : Path) : Path := ofParts (path.parts.foldl step []).reverse

-- An absolute path stands for itself, whatever it is joined to.
def join (dir path : Path) : Path :=
  if path.isAbsolute then path
  else if dir.text.toList.getLast? = none ∨ dir.text.toList.getLast? = some '/' then
    ⟨dir.text ++ path.text⟩
  else ⟨dir.text ++ "/" ++ path.text⟩

def absolutize (dir path : Path) : Path :=
  if path.isAbsolute then path.normalize else (dir.join path).normalize

-- What is left of two lists once their longest common beginning is taken away.
def dropCommon : List Part → List Part → List Part × List Part
  | p :: ps, q :: qs => if p = q then dropCommon ps qs else (p :: ps, q :: qs)
  | ps, qs => (ps, qs)

-- One `..` for each part of the base that the path does not share, then the path's own parts.
def relativeTo (base path : Path) : String :=
  let (above, below) := dropCommon base.parts path.parts
  "/".intercalate (above.map (fun _ => "..") ++ below.map Part.text)

-- Two spellings are the same path when their parts agree.
def sameAs (p q : Path) : Bool := p.parts == q.parts

def isWithin (path dir : Path) : Bool := dir.parts.isPrefixOf path.parts

def fileName? (path : Path) : Option String :=
  match path.parts.getLast? with
  | some (.name value) => some value
  | _ => none

-- What follows the last dot of the file name, unless that dot is its first character.
def extension? (path : Path) : Option String :=
  match path.fileName? with
  | none => none
  | some file =>
    let after := file.toList.reverse.takeWhile (· != '.')
    let before := file.toList.reverse.dropWhile (· != '.')
    if before.length ≤ 1 then none else some (String.ofList after.reverse)

end Path

end DocPipeline
