import DocPipeline.Failure.Basic
import DocPipeline.Json.Basic
import DocPipeline.Pattern.Basic

namespace DocPipeline

-- Reads patterns in order; the first that cannot be read is the failure.
def Pattern.compileAll (sources : List String) (label : String) :
    Except Failure (List Pattern) :=
  sources.mapM fun source =>
    match Pattern.parse? source with
    | some pattern => .ok pattern
    | none => .error (.invalidConfig ("'" ++ label ++ "' pattern '" ++ source ++
        "' is not a valid regular expression: wrong syntax or too large"))

-- The position of the first pattern found in a text.
def Pattern.firstIn (patterns : List Pattern) (text : String) : Option Nat :=
  patterns.findIdx? (·.isIn text)

-- Patterns over relative paths. A path is kept when an include pattern is found in it and no
-- exclude pattern is.
structure Filter where
  includes : List Pattern
  excludes : List Pattern
deriving Inhabited

namespace Filter

inductive Decision where
  | accepted (position : Nat)
  | notIncluded
  | excluded (position : Nat)
deriving DecidableEq, Inhabited

def Decision.toJson : Decision → Json
  | accepted position => .array [.string "accepted", .nat position]
  | notIncluded => .array [.string "notIncluded"]
  | excluded position => .array [.string "excluded", .nat position]

def compile (includes excludes : List String) : Except Failure Filter := do
  let includes ← Pattern.compileAll includes "includes"
  let excludes ← Pattern.compileAll excludes "excludes"
  return ⟨includes, excludes⟩

def decide (filter : Filter) (relative : String) : Decision :=
  match Pattern.firstIn filter.includes relative with
  | none => .notIncluded
  | some i =>
    match Pattern.firstIn filter.excludes relative with
    | some j => .excluded j
    | none => .accepted i

def accepts (filter : Filter) (relative : String) : Bool :=
  match filter.decide relative with
  | .accepted _ => true
  | _ => false

end Filter

-- A file accepted for parsing, with its path relative to the working directory.
structure Candidate where
  absolute : Path
  relative : String
deriving DecidableEq, Inhabited

namespace Candidate

def toJson (candidate : Candidate) : Json :=
  .object [("absolute", .string candidate.absolute.text),
    ("relative", .string candidate.relative)]

def ofFile (dir file : Path) : Candidate :=
  let absolute := Path.absolutize dir file
  ⟨absolute, Path.relativeTo dir absolute⟩

-- The accepted files in their order.
def select (dir : Path) (files : List Path) (filter : Filter) : List Candidate :=
  (files.map (ofFile dir)).filter fun candidate => filter.accepts candidate.relative

def skipEvent? (filter : Filter) (candidate : Candidate) : Option Event :=
  match filter.decide candidate.relative with
  | .accepted _ => none
  | .notIncluded => some ⟨.trace, "skip (no include match): " ++ candidate.relative⟩
  | .excluded position =>
    some ⟨.trace, "skip (exclude #" ++ toString position ++ "): " ++ candidate.relative⟩

def skipEvents (dir : Path) (files : List Path) (filter : Filter) : List Event :=
  (files.map (ofFile dir)).filterMap (skipEvent? filter)

end Candidate

end DocPipeline
