import DocPipeline.Coordinator.Configure
import DocPipeline.Publish.Destination

namespace DocPipeline

def samePaths (ps qs : List Path) : Bool :=
  ps.length == qs.length && (ps.zip qs).all fun (p, q) => p.sameAs q

def sameLists : Option (List Path) → Option (List Path) → Bool
  | none, none => true
  | some ps, some qs => samePaths ps qs
  | _, _ => false

def RunState.hasFilesOf (state before : RunState) : Bool :=
  sameLists before.sourceFiles state.sourceFiles && sameLists before.testFiles state.testFiles

namespace Flow

variable {ε : Type}

def discover (session : Session ε) : Flow ε (Session ε × Candidates) := do
  let hydrator := (← get).hydrator
  let (state, main) ← work (Discovery.findMain hydrator session.plan session.state)
  let (state, tests) ← work (Discovery.findTests hydrator session.plan state)
  return ({ session with state }, ⟨main, tests⟩)

-- The candidates of a pass. Those found before stand if no plugin has changed the lists of files.
def passCandidates (session : Session ε) (before : RunState) : Flow ε (Session ε × Candidates) :=
  let taken := { session with found := none }
  match session.found with
  | some found =>
    if session.state.hasFilesOf before then return (taken, found) else discover taken
  | none => discover taken

-- Parses the files of a pass, and gives the code that was skipped.
def parseFiles (session : Session ε) (candidates : Candidates) : Flow ε (List InvalidCode) := do
  let sources := Sources.of (← get).world.tree session.plan session.runtime session.package
  assemble do
    let _ ← Assembly.addSources sources .skip candidates.main
    match session.plan.test with
    | none => return
    | some test =>
      let _ ← Assembly.addTests sources test.type .skip candidates.tests

def parseFragments (session : Session ε) (fragments : List Fragment) :
    Flow ε (List InvalidCode) := do
  let sources := Sources.of (← get).world.tree session.plan session.runtime session.package
  assemble (Assembly.addFragments sources .skip fragments)

def editStore (edit : StoreEdit) : Flow ε Unit := do
  let _ ← work (Work.editStore edit)

-- Unless source text is to be published, it is blanked.
def withoutSource (plan : Plan) (records : List Record) : Flow ε (List Record) := do
  if plan.includeSource then return records
  else
    let (records, count) := stripSource records
    note .debug ("stripped source text from " ++ toString count ++ " records")
    return records

-- Lets plugins edit the records, and then the database.
def editRecords (plan : Plan) : Flow ε Unit := do
  let records := (← get).world.store.db.records
  editStore .take
  let records : List Record ← dispatch (.handleDocData plan) records
  editStore (.replace (← withoutSource plan records))
  let _ ← dispatch (.handleDocDb plan) ()
  note .info ("generated " ++ toString (← get).world.store.db.records.length ++ " records")

-- Begins a pass. Plugins may edit the lists of files before its candidates are chosen.
def beginPass (session : Session ε) : Flow ε (Session ε × Candidates) := do
  let before := session.state
  let state : RunState ← dispatch (.start session.plan session.package) before
  passCandidates { session with state } before

-- Parses the files of a pass, then the fragments that plugins supply. What was skipped replaces
-- what an earlier pass skipped.
def parse (session : Session ε) (candidates : Candidates) : Flow ε (Session ε) := do
  let skipped ← parseFiles session candidates
  let fragments : List Fragment ← dispatch (.handleVirtual session.plan) []
  let skippedFragments ← parseFragments session fragments
  return { session with state := { session.state with invalidCode := skipped ++ skippedFragments } }

-- What the resolver changed stays changed when it fails.
def resolve (session : Session ε) : Flow ε Unit := do
  let result := (session.runtime.resolver (← get).world.store.db).2
  editStore (.update fun db => (session.runtime.resolver db).1)
  match result with
  | .ok () => return
  | .error failure => throw (failure.blamedOn session.runtime.name "resolve")

-- What was taken away before a failure is gone.
def emptyDestination (plan : Plan) : Flow ε Unit := do
  if plan.emptyDestination then
    let c ← get
    let (tree, result) := Destination.empty c.world.tree plan.destination c.dir
    set { c with world := { c.world with tree } }
    match result with
    | .error failure => throw failure
    | .ok emptied =>
      if emptied then note .info ("emptied destination: " ++ plan.destination.text)

def callPublisher (session : Session ε) : Flow ε RunState := ExceptT.mk fun c =>
  let conduct := session.publisher session.plan session.package
  let outcome := conduct.run session.state c.world
  let result := match outcome.result with
    | .ok () => .ok outcome.payload
    | .error failure => .error (failure.blamedOn session.plan.publisher.name "publish")
  (result, { c with world := outcome.world })

def reportPass (session : Session ε) : Flow ε Unit := do
  if session.plan.docCoverage then
    note .info ("coverage: " ++ (← get).world.store.db.coverage.text)
  match session.state.invalidCodeReport? with
  | none => return
  | some report => note .warn report

-- What comes before the publisher is called.
def preparePublishing (plan : Plan) : Flow ε Unit := do
  emptyDestination plan
  note .info ("publishing with: " ++ plan.publisher.name)

def publish (session : Session ε) : Flow ε (Session ε) := do
  let state ← callPublisher session
  let session := { session with state }
  reportPass session
  return session

end Flow

end DocPipeline
