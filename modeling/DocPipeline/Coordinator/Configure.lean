import DocPipeline.Coordinator.Basic

namespace DocPipeline

structure Candidates where
  main : List Candidate
  tests : List Candidate
deriving DecidableEq, Inhabited

-- Everything that was decided before the first pass, and what the passes change.
structure Session (ε : Type) where
  plan : Plan
  state : RunState
  package : Package
  runtime : Runtime
  publisher : Publisher ε
  -- What was found before the first pass, until that pass takes it.
  found : Option Candidates := none

def LogLevel.limit : LogLevel → Option Level
  | off => none
  | fatal | error => some .error
  | warn => some .warn
  | info => some .info
  | verbose | debug => some .debug
  | trace => some .trace

namespace Session

variable {ε : Type}

def reparser (session : Session ε) : Reparser :=
  ⟨session.plan, session.runtime, session.package⟩

end Session

namespace Package

-- The manifest of a package. One that cannot be read counts as missing.
def load (tree : Tree) (format : Json → PackageSummary) (path : Path) : Package × List Event :=
  match tree.readText path with
  | .error e => ({}, [⟨.debug, "no package manifest at " ++ path.text ++ ": " ++ e.message⟩])
  | .ok text =>
    match Json.parse? text with
    | some raw => (⟨raw, format raw⟩, [])
    | none =>
      ({}, [⟨.warn, "Ignoring unparsable package manifest " ++ path.text ++
        ": the text is malformed"⟩])

end Package

namespace Flow

variable {ε : Type}

def applyLogLevel (level : LogLevel) : Flow ε Unit := do
  let c ← get
  if c.setsLogLevel then
    set { c with world := { c.world with log := { c.world.log with limit := level.limit } } }
    note .debug ("log level set to " ++ level.debugName)

def loadRuntime (settings : Settings) : Flow ε Runtime := do
  match settings.runtime with
  | none => throw (.invalidConfig "'runtime' is required")
  | some spec => work ((← get).registry.loadRuntime spec settings.runtimeOptions)

def registerNamed (spec : CollaboratorSpec) : Flow ε Unit := do
  register (← work ((← get).registry.loadPlugin spec))

-- Registers the plugins of the host, which are then no longer waiting.
def registerWaiting : Flow ε Unit := do
  let waiting := (← get).waiting
  modify fun c => { c with waiting := [] }
  waiting.forM register

def loadPackage (path : Path) : Flow ε Package := do
  let c ← get
  let (package, events) := Package.load c.world.tree c.format path
  work (Work.noteAll events)
  return package

-- Loads the settings, the runtime and the plugins.
def prepare (raw : Json) : Flow ε (Settings × Runtime) := do
  register (.diagnostics {})
  let c ← get
  let settings ← work (Work.act (Settings.load c.world.tree c.dir raw))
  applyLogLevel settings.logLevel
  let runtime ← loadRuntime settings
  note .info ("runtime: " ++ runtime.name)
  settings.plugins.forM registerNamed
  registerWaiting
  return (settings, runtime)

-- Fixes the plan, and loads what depends on it.
def settle (settings : Settings) (runtime : Runtime) : Flow ε (Session ε) := do
  let (plan, state) ← work (Work.act (Plan.ofSettings settings (← get).dir))
  applyLogLevel plan.logLevel
  let publisher ← work ((← get).registry.loadPublisher plan.publisher plan.publisherOptions)
  let package ← loadPackage plan.package
  modify fun c => { c with plan := some plan, packageMessage := some package.summary.message }
  return { plan, state, package, runtime, publisher }

-- Plugins are registered first and may edit the settings. The publisher is loaded after that, so
-- that they may choose another.
def configure (raw : Json) : Flow ε (Session ε) := do
  let (settings, runtime) ← prepare raw
  let settings : Settings ← dispatch .handleConfig settings
  settle settings runtime

end Flow

end DocPipeline
