import DocPipeline.Config.Plan
import DocPipeline.Metrics
import DocPipeline.Package
import DocPipeline.Parsing.Basic
import DocPipeline.Store

namespace DocPipeline

-- Code that no file holds, under a label for messages.
structure Fragment where
  label : String
  code : String
deriving DecidableEq, Inhabited

def Fragment.toJson (fragment : Fragment) : Json :=
  .object [("label", .string fragment.label), ("code", .string fragment.code)]

inductive OnFailure where
  | skip
  | propagate
deriving DecidableEq, Inhabited

-- What parsers are told in one pass.
structure Sources where
  tree : Tree
  dir : Path
  parser : Parser
  hint : PackageHint
deriving Inhabited

def Package.hint (package : Package) (dir : Path) : PackageHint :=
  ⟨package.name?, package.main?.map fun main => Path.absolutize dir ⟨main⟩⟩

def Sources.of (tree : Tree) (plan : Plan) (runtime : Runtime) (package : Package) : Sources :=
  ⟨tree, plan.dir, runtime.parser, package.hint plan.dir⟩

-- Assembling the records of a pass. Files are parsed in order and their records are stored as they
-- come, which makes the order of parsing the order of the documentation. A file or fragment that
-- cannot be parsed is either skipped and remembered, or ends the assembly with a failure.
structure Assembly where
  store : Store := {}
  metrics : Metrics := {}
  log : Log
  skipped : List InvalidCode := []
deriving Inhabited

abbrev Assembling := ExceptT Failure (StateM Assembly)

namespace Assembly

def count (change : Metrics → Metrics) : Assembling Unit :=
  modify fun a => { a with metrics := change a.metrics }

def say (level : Level) (message : String) : Assembling Unit :=
  modify fun a => { a with log := a.log.add ⟨level, message⟩ }

def keep (records : List Record) (ast : Option Ast) : Assembling Unit :=
  modify fun a => { a with store := (a.store.append records ast).1 }

-- Decides about a failure. The message that is remembered is that of its outermost layer.
def settle (label : String) (policy : OnFailure) (result : ParseResult) :
    Assembling (Option Parsed) := do
  match result with
  | .ok parsed => return parsed
  | .error cause =>
    let failure := Failure.parse label cause
    count Metrics.addFailure
    match policy with
    | .propagate => throw failure
    | .skip =>
      say .warn (failure.message ++ ": " ++ cause.message)
      modify fun a => { a with skipped := a.skipped ++ [⟨label, cause.message⟩] }
      return none

-- Stores what a file gave, and counts the file.
def addFile (key : String) (parsed : Parsed) : Assembling Nat := do
  let n := parsed.records.length
  count fun m => if n = 0 ∧ parsed.ast.isNone then m.addEmptyFile else m.addFile n
  keep parsed.records (parsed.ast.map fun tree => ⟨key, tree⟩)
  return n

def parseSource (sources : Sources) (policy : OnFailure) (file : Candidate) :
    Assembling (Option Parsed) := do
  say .info ("parse: " ++ file.relative)
  settle file.relative policy
    (sources.parser.file sources.tree sources.dir file.absolute sources.hint)

def parseTest (sources : Sources) (type : String) (policy : OnFailure) (file : Candidate) :
    Assembling (Option Parsed) := do
  say .info ("parse: " ++ file.relative)
  settle file.relative policy (sources.parser.test sources.tree type sources.dir file.absolute)

def addSource (sources : Sources) (policy : OnFailure) (file : Candidate) : Assembling Nat := do
  match (← parseSource sources policy file) with
  | none => return 0
  | some parsed => addFile file.relative parsed

-- The syntax trees of test files have keys of their own.
def testKey (file : Candidate) : String := "test/" ++ file.relative

def addTest (sources : Sources) (type : String) (policy : OnFailure) (file : Candidate) :
    Assembling Nat := do
  match (← parseTest sources type policy file) with
  | none => return 0
  | some parsed => addFile (testKey file) parsed

def markVirtual (record : Record) : Record := { record with isVirtual := true }

def addFragment (sources : Sources) (policy : OnFailure) (fragment : Fragment) :
    Assembling Nat := do
  say .debug ("parse virtual: " ++ fragment.label)
  match (← settle fragment.label policy (sources.parser.code sources.dir fragment.code)) with
  | none => return 0
  | some parsed =>
    count (·.addVirtual parsed.records.length)
    keep (parsed.records.map markVirtual) none
    return parsed.records.length

-- Adds one after the other, and gives the number of records added.
def addEach {α : Type} (add : α → Assembling Nat) : List α → Assembling Nat
  | [] => return 0
  | item :: rest => do return (← add item) + (← addEach add rest)

def addSources (sources : Sources) (policy : OnFailure) (files : List Candidate) : Assembling Nat :=
  addEach (addSource sources policy) files

def addTests (sources : Sources) (type : String) (policy : OnFailure) (files : List Candidate) :
    Assembling Nat :=
  addEach (addTest sources type policy) files

def addFragments (sources : Sources) (policy : OnFailure) (fragments : List Fragment) :
    Assembling Nat :=
  addEach (addFragment sources policy) fragments

def takeSkipped : Assembling (List InvalidCode) := do
  let skipped := (← get).skipped
  modify fun a => { a with skipped := [] }
  return skipped

end Assembly

end DocPipeline
