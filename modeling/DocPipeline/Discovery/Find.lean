import DocPipeline.Discovery.Hydrate
import DocPipeline.Conduct

namespace DocPipeline

-- Expands source patterns in a working directory.
abbrev Hydrator (ε : Type) := Path → List String → Conduct ε Unit Hydrated

def fileHydrator {ε : Type} : Hydrator ε := fun dir patterns =>
  .readTree fun tree => .ofAct (Discovery.hydrate tree dir patterns)

namespace Discovery

variable {ε : Type}

def hydrateEvent (label : String) (hydrated : Hydrated) : Event :=
  ⟨.debug, "hydrated " ++ label ++ " -> " ++ toString hydrated.files.length ++ " files from " ++
    toString hydrated.globs.length ++ " globs"⟩

def missingSource (label : String) : Failure :=
  .invalidConfig ("'" ++ label ++ "' is required when no explicit file list is given")

def hydrateSource (hydrator : Hydrator ε) (dir : Path) (source : Option SourceSpec)
    (label : String) : Work ε Hydrated := do
  match source with
  | none => throw (missingSource label)
  | some source =>
    let hydrated ← tryCatch (hydrator dir source.patterns).perform fun failure =>
      throw (failure.note ("Failed to expand '" ++ label ++ "' patterns"))
    Work.noteAll [hydrateEvent label hydrated]
    return hydrated

-- The candidates among files. The others are counted.
def choose (dir : Path) (filter : Filter) (files : List Path) : Work ε (List Candidate) := do
  let accepted := Candidate.select dir files filter
  Work.noteAll (Candidate.skipEvents dir files filter)
  Work.count (·.addFiltered (files.length - accepted.length))
  return accepted

def fillMain (hydrator : Hydrator ε) (plan : Plan) (state : RunState) : Work ε RunState :=
  match state.sourceFiles with
  | some _ => return state
  | none => do
    let hydrated ← hydrateSource hydrator plan.dir plan.source "source"
    return { state with sourceFiles := some hydrated.files, sourceGlobs := some hydrated.globs }

def fillTests (hydrator : Hydrator ε) (plan : Plan) (test : TestPlan) (state : RunState) :
    Work ε RunState :=
  match state.testFiles with
  | some _ => return state
  | none => do
    let hydrated ← hydrateSource hydrator plan.dir test.source "test.source"
    return { state with testFiles := some hydrated.files, testGlobs := some hydrated.globs }

-- A list of files that the run state holds is taken as it is; one that it does not hold is filled
-- by expanding the configured source, and kept. The files that the patterns accept are the
-- candidates, in the order of the list.
def findMain (hydrator : Hydrator ε) (plan : Plan) (state : RunState) :
    Work ε (RunState × List Candidate) := do
  let state ← fillMain hydrator plan state
  return (state, ← choose plan.dir plan.filter (state.sourceFiles.getD []))

-- Without tests in the configuration there are no test files.
def findTests (hydrator : Hydrator ε) (plan : Plan) (state : RunState) :
    Work ε (RunState × List Candidate) :=
  match plan.test with
  | none => return (state, [])
  | some test => do
    let state ← fillTests hydrator plan test state
    return (state, ← choose plan.dir test.filter (state.testFiles.getD []))

end Discovery

end DocPipeline
