import DocPipeline.Coordinator.Pass

namespace DocPipeline

-- Where a run stands: what it does next, with what it knows by then. A pass goes from `start` to
-- `completed`.
inductive Moment (ε : Type) where
  | configure (raw : Json)
  | discover (session : Session ε)
  | start (session : Session ε)
  | parse (session : Session ε) (candidates : Candidates)
  | edit (session : Session ε)
  | resolve (session : Session ε)
  | prepare (session : Session ε)
  | publish (session : Session ε)
  | complete (session : Session ε)
  | completed (session : Session ε) (keepAlive : Bool)
  | idle (session : Session ε)
  -- The run may come back here while nothing is queued.
  | wait (session : Session ε)
  | signalled (session : Session ε) (signal : Signal)
  | shutDown (plan : Plan)
  | returned (result : Except Failure Unit)

namespace Moment

variable {ε : Type}

-- The stage that is entered first, if any.
def target? : Moment ε → Option Stage
  | configure _ => some .configuring
  | discover _ => some .discovering
  | start _ => some .generating
  | resolve _ => some .resolving
  | prepare _ => some .publishing
  | complete _ => some .completing
  | idle _ => some .idle
  | signalled _ .regenerate => some .regenerating
  | shutDown _ => some .terminated
  | _ => none

def isReturned : Moment ε → Bool
  | returned _ => true
  | _ => false

end Moment

namespace Flow

variable {ε : Type}

def mintHandle : Flow ε Handle :=
  modifyGet fun c =>
    let (signals, handle) := c.world.signals.mint
    (handle, { c with world := { c.world with signals } })

def dropHandle (handle : Handle) : Flow ε Unit :=
  modify fun c => { c with world := { c.world with signals := c.world.signals.drop handle } }

-- Tells the plugins that the pass is complete, and gives whether to keep the run alive.
def complete (session : Session ε) : Flow ε Bool := do
  let handle ← mintHandle
  let keepAlive : Bool ←
    tryCatch (dispatch (.complete session.plan handle session.reparser) false) fun failure => do
      dropHandle handle
      throw failure
  dropHandle handle
  return keepAlive

def regenerate (session : Session ε) : Flow ε (Session ε) := do
  editStore .reset
  note .info ("regenerating (generation " ++ toString (← get).world.store.db.generation ++ ")")
  let state : RunState ← dispatch (.regenerate session.plan session.reparser)
    { session.state with menuLinks := [] }
  return { session with state }

def waitForSignal : Flow ε Wait :=
  modifyGet fun c =>
    let (signals, wait) := c.world.signals.wait
    (wait, { c with world := { c.world with signals } })

def wait (session : Session ε) : Flow ε (Moment ε) := do
  match (← waitForSignal) with
  | .signal signal => return .signalled session signal
  | .noHandles => do
    note .info "no lifecycle handles left; shutting down"
    return .shutDown session.plan
  | .pending => return .wait session

def discoverFirst (session : Session ε) : Flow ε (Session ε) := do
  let (session, candidates) ← discover session
  note .info ("discovered " ++ toString candidates.main.length ++ " source files and " ++
    toString candidates.tests.length ++ " test files")
  return { session with found := some candidates }

-- A failure of the last hook is handed on after everything was released.
def shutDown (plan : Plan) : Flow ε Unit := do
  let (result : Except Failure Unit) ←
    tryCatch (do
      let _ ← dispatch (.shutdown (some plan)) ()
      return .ok ()) fun failure => return .error failure
  modify Coordinator.release
  work (Work.noteAll ((← get).world.metrics.summary 0.0))
  match result with
  | .ok () => return
  | .error failure => throw failure

-- What is done at a moment once its stage was entered, and the moment after it.
def proceed : Moment ε → Flow ε (Moment ε)
  | .configure raw => return .discover (← configure raw)
  | .discover session => return .start (← discoverFirst session)
  | .start session => do
    let (session, candidates) ← beginPass session
    return .parse session candidates
  | .parse session candidates => return .edit (← parse session candidates)
  | .edit session => do
    editRecords session.plan
    return .resolve session
  | .resolve session => do
    resolve session
    return .prepare session
  | .prepare session => do
    preparePublishing session.plan
    return .publish session
  | .publish session => return .complete (← publish session)
  | .complete session => return .completed session (← complete session)
  | .completed session keepAlive => do
    work (Work.count Metrics.addPass)
    return if keepAlive then .idle session else .shutDown session.plan
  | .idle session => do
    note .info "keep alive: waiting for regenerate or shutdown"
    return .wait session
  | .wait session => wait session
  | .signalled session .regenerate => return .start (← regenerate session)
  | .signalled session .shutdown => do
    note .info "shutdown requested"
    return .shutDown session.plan
  | .shutDown plan => do
    shutDown plan
    return .returned (.ok ())
  | .returned result => return .returned result

def enterTarget (moment : Moment ε) : Flow ε Unit :=
  match moment.target? with
  | some target => enter target
  | none => return

def advance (moment : Moment ε) : Flow ε (Moment ε) := do
  enterTarget moment
  proceed moment

end Flow

namespace Coordinator

variable {ε : Type}

-- From one moment to the next. A failure ends the run.
def step (moment : Moment ε) (c : Coordinator ε) : Moment ε × Coordinator ε :=
  match (ExceptT.run (Flow.advance moment)).run c with
  | (.ok next, c) => (next, c)
  | (.error failure, c) => (.returned (.error failure), c.abort)

-- There is no answer if the run has not returned after so many steps.
def follow : Nat → Moment ε → Coordinator ε → Option (Except Failure Unit × Coordinator ε)
  | _, .returned result, c => some (result, c)
  | 0, _, _ => none
  | steps + 1, moment, c =>
    let (moment, c) := c.step moment
    follow steps moment c

-- No pass takes more steps.
def passSteps : Nat := 11

-- Runs a configuration. There is an answer unless the run goes on after `bound` passes. Passes are
-- made until no plugin asks to keep it alive, or a signal ends it, or no handle is left through
-- which a signal could come. Whatever happens, a run that returns is terminated.
def generate (bound : Nat) (raw : Json) (c : Coordinator ε) :
    Option (Except Failure Unit × Coordinator ε) :=
  c.follow (passSteps * (bound + 1)) (.configure raw)

end Coordinator

end DocPipeline
